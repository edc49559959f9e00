import SmbClient.Lib.Runs
import SmbClient.Lib.Slots

/-! The multichannel session table of `smb2_mc_support.c`: the interfaces of client and server, a
connection entry for each pair of them, and the list of the connections that were established. Every
operation holds `interface_table_lck`. Entries are reached by the number they were allocated with, so
that `session_con_list` is the numbers in use. -/

namespace SmbClient.Multichannel
open SmbClient.Lib

inductive ConState
  | potential | noPotential | inTrial | failedToConnect | connected | surplus | inRemoval
  deriving DecidableEq, Repr

inductive ActiveState
  | active | inactive | inactiveRedundant
  deriving DecidableEq, Repr

inductive NicState
  | idle | onTrial | used | disconnected
  deriving DecidableEq, Repr

inductive Family
  | inet | inet6 | other
  deriving DecidableEq, Repr

structure SockAddr where
  family : Family
  ip : List UInt8
  deriving DecidableEq, Repr

def smb2McSockaddrCmp (x y : SockAddr) : Bool :=
  x.family != .other && y.family != .other && x.ip == y.ip

structure NetworkNicInfo where
  nicIndex : Nat
  linkSpeed : Nat
  nicType : Nat := 0
  rssCapable : Bool := false
  addr : SockAddr
  deriving DecidableEq, Repr

def ifmEther : Nat := 0x20
def smb2IfIndexMask : Nat := 2 ^ 32
def smb2IfRssIndexShift : Nat := 32
def kClientIfIgnorelistMaxLen : Nat := 32

structure Nic where
  nicIndex : Nat := 0
  linkSpeed : Nat := 0
  nicType : Nat := 0
  ipv4 : Bool := false
  ipv6 : Bool := false
  inIgnorelist : Bool := false
  state : NicState := .idle
  addrList : List SockAddr := []
  possibleConnections : List Nat := []
  deriving DecidableEq, Repr

def Nic.baseIndex (nic : Nic) : Nat := nic.nicIndex % smb2IfIndexMask

structure Con where
  state : ConState := .potential
  activeState : ActiveState := .active
  speed : Nat := 0
  iod : Option Nat := none
  clientNic : Nat
  serverNic : Nat
  deriving DecidableEq, Repr

/-- The connection has an established channel. -/
def Con.Established (con : Con) : Prop := con.state = .connected ∨ con.state = .inRemoval

instance (con : Con) : Decidable con.Established := inferInstanceAs (Decidable (_ ∨ _))

inductive Side
  | client | server
  deriving DecidableEq, Repr

def Con.nic (con : Con) : Side → Nat
  | .client => con.clientNic
  | .server => con.serverNic

structure Table where
  clientNicList : List Nat := []
  serverNicList : List Nat := []
  nics : Slots Nic := []
  cons : Slots Con := []
  successfulConList : List Nat := []
  activeOnTrialConnections : Nat := 0
  maxChannels : Nat
  srvrRssChannels : Nat
  clntRssChannels : Nat
  preferWired : Bool := false
  pauseTrials : Nat := 0
  clientIfIgnorelist : List Nat := []
  deriving DecidableEq, Repr

def smb2McInit (maxChannels srvrRssChannels clntRssChannels : Nat) (clientIfIgnorelist : List Nat)
    (preferWired : Bool) : Table where
  maxChannels := if maxChannels = 0 then 17 else maxChannels
  srvrRssChannels := if srvrRssChannels = 0 then 4 else srvrRssChannels
  clntRssChannels := if clntRssChannels = 0 then 4 else clntRssChannels
  preferWired := preferWired
  clientIfIgnorelist := if clientIfIgnorelist.length > kClientIfIgnorelistMaxLen then [] else clientIfIgnorelist

def decrement32 (n : Nat) : Nat := if n = 0 then 2 ^ 32 - 1 else n - 1

namespace Table

variable (t : Table)

def nic (id : Nat) : Nic := (t.nics.lookup id).getD {}

def nicList : Side → List Nat
  | .client => t.clientNicList
  | .server => t.serverNicList

def withNicList (side : Side) (list : List Nat) : Table :=
  match side with
  | .client => { t with clientNicList := list }
  | .server => { t with serverNicList := list }

def modifyNic (id : Nat) (f : Nic → Nic) : Table := { t with nics := t.nics.modify id f }

def modifyCon (id : Nat) (f : Con → Con) : Table := { t with cons := t.cons.modify id f }

def mapCons (f : Con → Con) : Table := { t with cons := t.cons.mapAll f }

def conSpeed (con : Con) : Nat :=
  min (t.nic con.clientNic).linkSpeed (t.nic con.serverNic).linkSpeed

def setNicStates (con : Con) (state : NicState) : Table :=
  (t.modifyNic con.clientNic ({ · with state })).modifyNic con.serverNic ({ · with state })

/-! ## Interfaces -/

def smb2McGetNicByIndex (side : Side) (index : Nat) : Option Nat :=
  (t.nicList side).find? fun id => (t.nic id).nicIndex == index

def smb2McDoesIpBelongToInterface (info : Nic) (ip : SockAddr) : Bool :=
  info.addrList.any fun addr => smb2McSockaddrCmp addr ip

def smb2McGetNicByIp (side : Side) (ip : SockAddr) : Option Nat :=
  (t.nicList side).find? fun id =>
    -- only the channel with RSS index 0
    (t.nic id).nicIndex / 2 ^ smb2IfRssIndexShift % 16 == 0 && smb2McDoesIpBelongToInterface (t.nic id) ip

def smb2McUpdateInfoWithIp (nic : Nic) (addr : SockAddr) : Nic × Bool :=
  if smb2McDoesIpBelongToInterface nic addr then (nic, false)
  else
    ({ nic with
        ipv4 := nic.ipv4 || addr.family == .inet
        ipv6 := nic.ipv6 || addr.family != .inet
        addrList := nic.addrList ++ [addr] }, true)

def insertBySpeed (t : Table) (id speed : Nat) : List Nat → List Nat
  | [] => [id]
  | info :: rest =>
    if (t.nic info).linkSpeed ≤ speed then id :: info :: rest else info :: insertBySpeed t id speed rest

def smb2McInsertNewNicBySpeed (side : Side) (nic : Nic) : Table :=
  let id := t.nics.length
  { t.withNicList side (t.insertBySpeed id nic.linkSpeed (t.nicList side)) with nics := t.nics.alloc nic }

def smb2McAddNewInterfaceInfoToList (side : Side) (info : NetworkNicInfo) (rssVal : Nat)
    (inIgnoreList : Bool) : Table :=
  let nicIndex := rssVal * 2 ^ smb2IfRssIndexShift + info.nicIndex % 2 ^ 32
  let refresh (nic : Nic) : Nic :=
    (smb2McUpdateInfoWithIp
      { nic with
        nicIndex
        linkSpeed := info.linkSpeed
        nicType := info.nicType
        inIgnorelist := nic.inIgnorelist || inIgnoreList } info.addr).1
  match t.smb2McGetNicByIndex side nicIndex with
  | some id => t.modifyNic id refresh
  | none => t.smb2McInsertNewNicBySpeed side (refresh {})

def addWithRss (side : Side) (rssChannels : Nat) (info : NetworkNicInfo) (inIgnoreList : Bool) (t : Table) : Table :=
  let t := t.smb2McAddNewInterfaceInfoToList side info 0 inIgnoreList
  if !inIgnoreList && info.rssCapable then
    (List.range' 1 (rssChannels - 1)).foldl
      (fun t rss => t.smb2McAddNewInterfaceInfoToList side info rss inIgnoreList) t
  else t

/-- How far the entry of a reported interface comes: memory may run out, or the offset of the next one be too small. -/
inductive Added
  | whole | last | nothing | allocated (channels : Nat) | entered (channels : Nat)
  deriving DecidableEq, Repr

def addFails (side : Side) (info : NetworkNicInfo) (rssVal : Nat) (inIgnoreList : Bool) : Table :=
  let nicIndex := rssVal * 2 ^ smb2IfRssIndexShift + info.nicIndex % 2 ^ 32
  match t.smb2McGetNicByIndex side nicIndex with
  | some id => t.modifyNic id fun nic =>
    { nic with
      nicIndex
      linkSpeed := info.linkSpeed
      nicType := info.nicType
      inIgnorelist := nic.inIgnorelist || inIgnoreList }
  | none => t

def releaseClientNics : Table :=
  { t with clientNicList := [], nics := t.clientNicList.foldl Slots.free t.nics }

def parseClientInterfaces (rssForceOn : Bool) : List (NetworkNicInfo × Added) → Table → Table
  | [], t => t
  | (info, added) :: rest, t =>
    let ignored := t.clientIfIgnorelist.contains info.nicIndex
    let info := { info with rssCapable := info.rssCapable || rssForceOn }
    let enter (channels : Nat) := t.addWithRss .client (min channels t.clntRssChannels) info ignored
    match added with
    | .whole => parseClientInterfaces rssForceOn rest (enter t.clntRssChannels)
    | .last => enter t.clntRssChannels
    | .nothing => t.releaseClientNics
    | .allocated channels => enter channels
    | .entered channels => parseClientInterfaces rssForceOn rest ((enter channels).addFails .client info channels ignored)

def releases : List (NetworkNicInfo × Added) → Bool
  | [] => false
  | (_, .whole) :: rest | (_, .entered _) :: rest => releases rest
  | (_, .nothing) :: _ => true
  | (_, .last) :: _ | (_, .allocated _) :: _ => false

/-- The report, when there is memory for all of it. -/
def smb2McParseClientInterfaceArray (clientInfo : List NetworkNicInfo) (rssForceOn : Bool) : Table :=
  clientInfo.foldl (fun t info =>
    t.addWithRss .client t.clntRssChannels { info with rssCapable := info.rssCapable || rssForceOn }
      (t.clientIfIgnorelist.contains info.nicIndex)) t

/-! ## Connections -/

def smb2McResetConStatus (nicId : Nat) (side : Side) : Table :=
  t.mapCons fun con =>
    if con.nic side = nicId ∧ !(t.nic nicId).inIgnorelist then
      if con.state = .failedToConnect ∨ con.state = .noPotential then { con with state := .potential }
      else { con with speed := t.conSpeed con }
    else con

def findConByNics (clientNic serverNic : Nat) : Option Nat :=
  t.cons.inUse.find? fun id =>
    (t.cons.lookup id).any fun con => con.clientNic == clientNic && con.serverNic == serverNic

def updateCon (pair : Nat × Nat) : Table :=
  let client := t.nic pair.1
  let server := t.nic pair.2
  match t.findConByNics pair.1 pair.2 with
  | none =>
    let state : ConState :=
      if !(client.ipv4 && server.ipv4) && !(client.ipv6 && server.ipv6) || client.inIgnorelist then .noPotential
      else if server.state = .used then .surplus
      else .potential
    modifyNic { t with cons := t.cons.alloc { state, clientNic := pair.1, serverNic := pair.2 } } pair.1
      fun nic => { nic with possibleConnections := nic.possibleConnections ++ [t.cons.length] }
  | some id =>
    t.modifyCon id fun con =>
      if client.state = .idle ∧ server.state = .idle ∧ con.state = .surplus then { con with state := .potential }
      else con

/-- Memory for new entries may run out after some turns. -/
def smb2McUpdateConList (turns : Option Nat := none) : Table :=
  let pairs := t.clientNicList.flatMap fun client => t.serverNicList.map fun server => (client, server)
  (turns.elim pairs pairs.take).foldl updateCon t

def removeCon (id : Nat) : Table :=
  match t.cons.lookup id with
  | none => t
  | some con =>
    modifyNic { t with cons := t.cons.free id } con.clientNic
      fun nic => { nic with possibleConnections := nic.possibleConnections.erase id }

def smb2McRemoveNicIfUnused (side : Side) (nicId : Nat) : Table :=
  let mine := t.cons.inUse.filter fun id => (t.cons.lookup id).any fun con => con.nic side == nicId
  let canRemove := mine.all fun id => (t.cons.lookup id).all fun con =>
    !(t.nic nicId).inIgnorelist && (con.state == .failedToConnect || con.state == .noPotential)
  if !mine.isEmpty && canRemove then
    let t := mine.foldl removeCon t
    { t.withNicList side ((t.nicList side).erase nicId) with nics := t.nics.free nicId }
  else t

def smb2McUpdateIpList (existing new : Nic) : Nic × Bool :=
  let kept := existing.addrList.filter fun addr => new.addrList.any fun addr' => smb2McSockaddrCmp addr' addr
  let removed := kept.length != existing.addrList.length
  new.addrList.foldl (fun (nic, changed) addr =>
    let updated := smb2McUpdateInfoWithIp nic addr
    (updated.1, changed || updated.2)) ({ existing with addrList := kept }, removed)

def updateNic (side : Side) (state : Table × Bool) (updated : Nic) : Table × Bool :=
  let t := state.1
  match t.smb2McGetNicByIndex side updated.nicIndex with
  | none => (t.smb2McInsertNewNicBySpeed side updated, true)
  | some id =>
    let listed := smb2McUpdateIpList (t.nic id) updated
    let changed := listed.2 || (t.nic id).linkSpeed != updated.linkSpeed || (t.nic id).nicType != updated.nicType
    let t := t.modifyNic id fun _ => listed.1
    if changed then
      let t := t.modifyNic id ({ · with linkSpeed := updated.linkSpeed, nicType := updated.nicType })
      (t.smb2McResetConStatus id side, state.2)
    else if side = .client then (t.smb2McResetConStatus id side, state.2)
    else (t, state.2)

def smb2McUpdateNicListFromNotifier (updated : Table) (side : Side) (turns : Option Nat := none) : Table :=
  let (t, needUpdate) := ((updated.nicList side).map updated.nic).foldl (updateNic side) (t, false)
  let t := if needUpdate then t.smb2McUpdateConList turns else t
  (t.nicList side).foldl (fun t id => t.smb2McRemoveNicIfUnused side id) t

def smb2McNotifierEvent (clientInfo : List NetworkNicInfo) (clntRssChannels : Nat) (rssForceOn : Bool)
    (turns : Option Nat := none) : Table :=
  let updated := (smb2McInit 0 0 clntRssChannels [] false).smb2McParseClientInterfaceArray clientInfo rssForceOn
  t.smb2McUpdateNicListFromNotifier updated .client turns

def smb2McQueryInfoResponseEvent (serverInfo : List NetworkNicInfo) (turns : Option Nat := none) : Table :=
  let updated := serverInfo.foldl (fun u info => u.addWithRss .server t.srvrRssChannels info false)
    (smb2McInit 0 0 0 [] false)
  t.smb2McUpdateNicListFromNotifier updated .server turns

def smb2McResetNicList : Table :=
  t.clientNicList.foldl (fun t id => t.smb2McResetConStatus id .client) t

/-! ## Statistics -/

structure Stats where
  activeCnt : Nat := 0
  inactiveCnt : Nat := 0
  wiredInactiveCnt : Nat := 0
  maxActiveSpeed : Nat := 0
  maxInactiveSpeed : Nat := 0
  maxPotentialSpeed : Nat := 0
  maxPotentialWiredSpeed : Nat := 0
  potentialConWithMaxSpeed : Option Nat := none
  potentialWiredConWithMaxSpeed : Option Nat := none
  fastestInactive : Option Nat := none
  deriving DecidableEq, Repr

def wired (con : Con) : Bool := (t.nic con.clientNic).nicType == ifmEther

def idlePotential (con : Con) : Bool :=
  con.state == .potential && (t.nic con.clientNic).state == .idle && (t.nic con.serverNic).state == .idle

def tally (stats : Stats) (id : Nat) : Stats :=
  match t.cons.lookup id with
  | none => stats
  | some con =>
    if con.state = .connected then
      match con.activeState with
      | .active =>
        { stats with
          activeCnt := stats.activeCnt + 1
          maxActiveSpeed := max stats.maxActiveSpeed con.speed }
      | .inactive =>
        let stats := { stats with
          inactiveCnt := stats.inactiveCnt + 1
          wiredInactiveCnt := stats.wiredInactiveCnt + if t.wired con then 1 else 0 }
        if con.speed > stats.maxInactiveSpeed then
          { stats with maxInactiveSpeed := con.speed, fastestInactive := some id }
        else stats
      | .inactiveRedundant => stats
    else if t.idlePotential con then
      let stats := if con.speed > stats.maxPotentialSpeed then
        { stats with maxPotentialSpeed := con.speed, potentialConWithMaxSpeed := some id } else stats
      if t.preferWired && t.wired con && con.speed > stats.maxPotentialWiredSpeed then
        { stats with maxPotentialWiredSpeed := con.speed, potentialWiredConWithMaxSpeed := some id }
      else stats
    else stats

def halfUsed (con : Con) : Bool :=
  let client := (t.nic con.clientNic).state
  let server := (t.nic con.serverNic).state
  client == .used && server == .idle || client == .idle && server == .used

def fasterThanActive (activeSpeed : Nat) : List Nat → Table → Table × Option (Nat × Nat)
  | [], t => (t, none)
  | id :: rest, t =>
    match t.cons.lookup id with
    | none => fasterThanActive activeSpeed rest t
    | some con =>
      if (con.state = .surplus ∨ con.state = .potential) ∧ t.halfUsed con then
        let speed := t.conSpeed con
        let next := t.modifyCon id ({ · with speed })
        if t.preferWired ∧ !t.wired con then fasterThanActive activeSpeed rest next
        else if speed > activeSpeed ∧ (t.nic con.serverNic).state ≠ .onTrial then
          (next.modifyCon id ({ · with state := .potential }), some (id, speed))
        else fasterThanActive activeSpeed rest next
      else fasterThanActive activeSpeed rest t

def smb2McCountConnectionStats : Table × Stats :=
  let t := t.mapCons fun con => if t.idlePotential con then { con with speed := t.conSpeed con } else con
  let stats := t.cons.inUse.foldl t.tally {}
  let best := if t.preferWired then stats.potentialWiredConWithMaxSpeed else stats.potentialConWithMaxSpeed
  if stats.activeCnt > 0 ∧ best = none then
    match fasterThanActive stats.maxActiveSpeed t.cons.inUse t with
    | (t, none) => (t, stats)
    | (t, some (id, speed)) =>
      (t, { stats with
        maxPotentialSpeed := speed
        maxPotentialWiredSpeed := speed
        potentialConWithMaxSpeed := some id
        potentialWiredConWithMaxSpeed := some id })
  else (t, stats)

/-! ## Trials -/

def candidate (stats : Stats) : Option Nat × Nat × Bool :=
  if t.preferWired then
    if stats.potentialWiredConWithMaxSpeed.isSome then
      (stats.potentialWiredConWithMaxSpeed, stats.maxPotentialWiredSpeed, false)
    else if stats.inactiveCnt = 0 then (stats.potentialConWithMaxSpeed, stats.maxPotentialSpeed, true)
    else (none, 0, false)
  else (stats.potentialConWithMaxSpeed, stats.maxPotentialSpeed, false)

def trialState (stats : Stats) (inactiveAdded : Bool) (speed : Nat) (dontTestForActive : Bool) :
    Option ActiveState :=
  if speed ≥ stats.maxActiveSpeed ∧ !dontTestForActive then some .active
  else if speed > stats.maxInactiveSpeed ∨
      (!inactiveAdded ∧ (stats.inactiveCnt = 0 ∨ (t.preferWired ∧ stats.wiredInactiveCnt = 0))) then some .inactive
  else none

def startTrial (id : Nat) (activeState : ActiveState) : Table :=
  match t.cons.lookup id with
  | none => t
  | some con =>
    let t := t.modifyCon id fun con => { con with state := .inTrial, activeState, speed := t.conSpeed con }
    { t.setNicStates con .onTrial with
      activeOnTrialConnections := (t.activeOnTrialConnections + 1) % 2 ^ 32 }

def trialLoop : (fuel maxOutLen : Nat) → (inactiveAdded : Bool) → Table → Table × List Nat
  | 0, _, _, t => (t, [])
  | _, 0, _, t => (t, [])
  | fuel + 1, maxOutLen + 1, inactiveAdded, t =>
    let (t, stats) := t.smb2McCountConnectionStats
    let lost := stats.activeCnt = 0 ∧ stats.inactiveCnt ≠ 0
    let revived := if lost then
      stats.fastestInactive.filter fun id => (t.cons.lookup id).any (·.iod.isSome) else none
    match revived with
    | some id => trialLoop fuel (maxOutLen + 1) inactiveAdded (t.modifyCon id ({ · with activeState := .active }))
    | none =>
      if stats.inactiveCnt + stats.activeCnt ≥ t.maxChannels ∧
          stats.maxActiveSpeed ≥ stats.maxPotentialSpeed ∧ stats.maxActiveSpeed > stats.maxInactiveSpeed then
        (t, [])
      else
        let (potentialCon, speed, dontTestForActive) := t.candidate stats
        match potentialCon, t.trialState stats inactiveAdded speed dontTestForActive with
        | some id, some activeState =>
          let (last, trials) := trialLoop fuel maxOutLen (inactiveAdded || activeState == .inactive)
            (t.startTrial id activeState)
          (last, id :: trials)
        | _, _ => (t, [])

def smb2McAskForNewConnectionTrial (maxOutLen : Nat) : Table × List Nat :=
  if t.pauseTrials ≠ 0 ∨ t.activeOnTrialConnections > t.maxChannels then (t, [])
  else trialLoop (maxOutLen + 1) maxOutLen false t

def connectPossible (serverIdx : Nat) (iod : Option Nat) (t : Table) (id : Nat) : Table :=
  match t.cons.lookup id with
  | none => t
  | some con =>
    if (t.nic con.serverNic).nicIndex = serverIdx then
      let t := t.modifyCon id fun con =>
        { con with iod := iod.or con.iod, state := .connected, speed := t.conSpeed con }
      { t.setNicStates con .used with successfulConList := t.successfulConList ++ [id] }
    else if con.state = .potential then t.modifyCon id ({ · with state := .surplus })
    else t

def smb2McUpdateNewConnection (clientIdx serverIdx : Nat) (iod : Option Nat) : Option Table :=
  match t.smb2McGetNicByIndex .client clientIdx, t.smb2McGetNicByIndex .server serverIdx with
  | some clientNic, some _ =>
    let t := (t.nic clientNic).possibleConnections.foldl (connectPossible serverIdx iod) t
    some (t.mapCons fun con =>
      if (t.nic con.serverNic).nicIndex = serverIdx ∧ con.state = .potential then { con with state := .surplus }
      else con)
  | _, _ => none

def smb2McUpdateMainChannel (clientIp serverIp : SockAddr) (iod : Nat) : Option Table :=
  match t.smb2McGetNicByIp .client clientIp, t.smb2McGetNicByIp .server serverIp with
  | some client, some server =>
    t.smb2McUpdateNewConnection (t.nic client).nicIndex (t.nic server).nicIndex (some iod)
  | _, _ => none

def refreshNicStates : Table :=
  t.cons.inUse.foldl (fun t id =>
    match t.cons.lookup id with
    | none => t
    | some con =>
      match con.state with
      | .connected => t.setNicStates con .used
      | .inTrial => t.setNicStates con .onTrial
      | _ => t) t

def failTrial (id : Nat) (entry : Con) : Table :=
  let client := t.nic entry.clientNic
  let server := t.nic entry.serverNic
  let t := (t.setNicStates entry .idle).modifyCon id ({ · with iod := none })
  t.mapCons fun con =>
    if (t.nic con.clientNic).baseIndex = client.baseIndex then
      if (t.nic con.serverNic).baseIndex = server.baseIndex then { con with state := .failedToConnect }
      else if con.state = .surplus then { con with state := .potential } else con
    else if (t.nic con.serverNic).nicIndex = server.nicIndex ∧ con.state = .surplus then
      { con with state := .potential }
    else con

def reported (passed : Bool) (id : Nat) : Option (Table × Bool) :=
  (t.cons.lookup id).map fun entry =>
    let t := { t with activeOnTrialConnections := decrement32 t.activeOnTrialConnections }
    if passed then
      match t.smb2McUpdateNewConnection (t.nic entry.clientNic).nicIndex (t.nic entry.serverNic).nicIndex none with
      | none => (t.refreshNicStates, false)
      | some t => (t.refreshNicStates, true)
    else ((t.failTrial id entry).refreshNicStates, true)

def smb2McReportConnectionTrialResults (passed : Bool) (id : Nat) (turns : Option Nat := none) : Option Table :=
  (t.reported passed id).map fun r => if r.2 then r.1.smb2McUpdateConList turns else r.1

def markDisconnected (id : Nat) (entry : Con) : Table :=
  if entry.Established then
    { t.modifyCon id ({ · with state := .potential, iod := none }) with
      successfulConList := t.successfulConList.erase id }
  else if entry.state ≠ .failedToConnect ∧ entry.state ≠ .noPotential then
    t.modifyCon id ({ · with state := .potential, iod := none })
  else t.modifyCon id ({ · with iod := none })

def disconnected (id : Nat) : Option Table :=
  (t.cons.lookup id).map fun entry => ((t.markDisconnected id entry).setNicStates entry .idle).refreshNicStates

def smb2McInformConnectionDisconnected (id : Nat) (turns : Option Nat := none) : Option Table :=
  (t.disconnected id).map (·.smb2McUpdateConList turns)

def smb2McInformConnectionActiveStateChange (id : Nat) (active : Bool) : Option Table :=
  (t.cons.lookup id).map fun _ =>
    t.modifyCon id ({ · with activeState := if active then .active else .inactive })

/-! ## Excess connections -/

def conClientOrServerOnActive (clientNic serverNic : Nat) : Bool :=
  t.cons.inUse.any fun id => (t.cons.lookup id).any fun con =>
    con.activeState == .active && (con.clientNic == clientNic || con.serverNic == serverNic)

structure Sorting where
  table : Table
  actives : Nat := 0
  inactives : Nat := 0
  maxInactiveSpeed : Nat := 0
  maxInactiveWiredSpeed : Nat := 0
  fastestInactive : Option Nat := none
  fastestWiredInactive : Option Nat := none

def sortCon (maxSpeed : Nat) (wiredOnly : Bool) (s : Sorting) (id : Nat) : Sorting :=
  match s.table.cons.lookup id with
  | none => s
  | some con =>
    let fast := con.speed = maxSpeed ∧ (!wiredOnly ∨ s.table.wired con)
    let t := s.table.modifyCon id ({ · with activeState := if fast then .active else .inactive })
    if fast then { s with table := t, actives := s.actives + 1 }
    else
      let free := !t.conClientOrServerOnActive con.clientNic con.serverNic
      let s := { s with table := t, inactives := s.inactives + 1 }
      let s := if con.speed > s.maxInactiveSpeed ∧ free then
        { s with maxInactiveSpeed := con.speed, fastestInactive := some id } else s
      if t.preferWired ∧ t.wired con ∧ con.speed > s.maxInactiveWiredSpeed ∧ free then
        { s with maxInactiveWiredSpeed := con.speed, fastestWiredInactive := some id }
      else s

def markRedundant (keep : Option Nat) : List Nat → Nat → Table → Table
  | [], _, t => t
  | id :: rest, inactives, t =>
    if some id ≠ keep ∧ (t.cons.lookup id).any (·.activeState == .inactive) then
      let t := t.modifyCon id ({ · with activeState := .inactiveRedundant })
      if inactives - 1 = 1 then t else markRedundant keep rest (inactives - 1) t
    else markRedundant keep rest inactives t

def removeExcess (inactiveCnt : Nat) : List Nat → (activeCnt : Nat) → (maxOutLen : Int) → Table → Table × List Nat
  | [], _, _, t => (t, [])
  | id :: rest, activeCnt, maxOutLen, t =>
    match t.cons.lookup id with
    | none => removeExcess inactiveCnt rest activeCnt maxOutLen t
    | some con =>
      let active := (inactiveCnt + activeCnt) % 2 ^ 32 > t.maxChannels ∧ con.activeState = .active
      if con.state ≠ .inRemoval ∧ (active ∨ con.activeState = .inactiveRedundant) then
        let t := t.modifyCon id ({ · with state := .inRemoval })
        if maxOutLen - 1 = 0 then (t, [id])
        else
          let (last, removed) := removeExcess inactiveCnt rest
            (if active then decrement32 activeCnt else activeCnt) (maxOutLen - 1) t
          (last, id :: removed)
      else removeExcess inactiveCnt rest activeCnt maxOutLen t

def smb2McReturnExcessConnections (maxOutLen : Int) : Table × List Nat :=
  let speeds (p : Con → Bool) := t.successfulConList.foldl (fun speed id =>
    match t.cons.lookup id with
    | none => speed
    | some con => if p con then max speed con.speed else speed) 0
  let maxWiredSpeed := speeds fun con => t.preferWired && t.wired con
  let maxSpeed := if maxWiredSpeed ≠ 0 then maxWiredSpeed else speeds fun _ => true
  let sorted := t.successfulConList.foldl (sortCon maxSpeed (maxWiredSpeed != 0)) { table := t }
  let t := sorted.table
  let t := if sorted.inactives > 1 then
    markRedundant (sorted.fastestWiredInactive.or sorted.fastestInactive) t.successfulConList sorted.inactives t
    else t
  let (t, stats) := t.smb2McCountConnectionStats
  removeExcess stats.inactiveCnt t.successfulConList stats.activeCnt maxOutLen t

/-! ## Runs -/

inductive Event
  | parseClientInterfaceArray (entries : List (NetworkNicInfo × Added)) (rssForceOn : Bool)
  | notifierEvent (clientInfo : List NetworkNicInfo) (clntRssChannels : Nat) (rssForceOn : Bool)
      (turns : Option Nat := none)
  | queryInfoResponseEvent (serverInfo : List NetworkNicInfo) (turns : Option Nat := none)
  | resetNicList
  | askForNewConnectionTrial (maxOutLen : Nat)
  | attach (id iod : Nat)
  | reportConnectionTrialResults (passed : Bool) (id : Nat) (turns : Option Nat := none)
  | updateMainChannel (clientIp serverIp : SockAddr) (iod : Nat)
  | informConnectionDisconnected (id : Nat) (turns : Option Nat := none)
  | informConnectionActiveStateChange (id : Nat) (active : Bool)
  | returnExcessConnections (maxOutLen : Int)
  | pauseTrials
  | resumeTrials
  deriving DecidableEq, Repr

def step : Event → Option Table
  | .parseClientInterfaceArray entries rssForceOn => some (parseClientInterfaces rssForceOn entries t)
  | .notifierEvent clientInfo clntRssChannels rssForceOn turns =>
    some (t.smb2McNotifierEvent clientInfo clntRssChannels rssForceOn turns)
  | .queryInfoResponseEvent serverInfo turns => some (t.smb2McQueryInfoResponseEvent serverInfo turns)
  | .resetNicList => some t.smb2McResetNicList
  | .askForNewConnectionTrial maxOutLen => some (t.smb2McAskForNewConnectionTrial maxOutLen).1
  | .attach id iod => some (t.modifyCon id ({ · with iod := some iod }))
  | .reportConnectionTrialResults passed id turns => t.smb2McReportConnectionTrialResults passed id turns
  | .updateMainChannel clientIp serverIp iod => some ((t.smb2McUpdateMainChannel clientIp serverIp iod).getD t)
  | .informConnectionDisconnected id turns => t.smb2McInformConnectionDisconnected id turns
  | .informConnectionActiveStateChange id active => t.smb2McInformConnectionActiveStateChange id active
  | .returnExcessConnections maxOutLen => some (t.smb2McReturnExcessConnections maxOutLen).1
  | .pauseTrials => some { t with pauseTrials := (t.pauseTrials + 1) % 2 ^ 32 }
  | .resumeTrials => some { t with pauseTrials := t.pauseTrials - 1 }

/-- A report that releases the client's list comes while there are no entries. -/
def Spares : Event → Prop
  | .parseClientInterfaceArray entries _ => releases entries = true → t.cons.inUse = []
  | _ => True

instance (t : Table) (event : Event) : Decidable (t.Spares event) := by
  unfold Spares
  split <;> infer_instance

end Table
end SmbClient.Multichannel
