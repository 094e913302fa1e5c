import Pfm.ClassifierAdd
import Pfm.KniRead

/-!
# Links and interfaces follow each other

The rest of `pfm_link.c` and `pfm_kni.c`.  The kernel configures an interface up or
down, and its link is restarted or stopped (`link_state_change`).  The link monitor sees
a link go up or down, and the interfaces of the link are told (`kni_state_change`); the
first time this happens a child process is to run the `ip` command for every interface.

* `CarrierInv` : a pointer is that of one interface, which shows the state of its link;
* `carrier_exact` : what an interface shows, in any run;
* `ipCommands_once` : when the `ip` command is run, and what for.
-/

namespace Pfm

open BoundedLoop StepSystem

variable {Kni : Type}

/-! ### Devices -/

/-- What these functions do to a device. -/
inductive DevFn where
  | txDoneCleanup
  | setLinkDown
  | stop
  | start
  deriving DecidableEq

structure DevCall where
  fn : DevFn
  port : UInt16
  deriving DecidableEq

/-- Success, and the calls made.  What they return is only logged. -/
def linkStop (T : LinkTable) (linkId : UInt16) : Option (Bool × List DevCall) := do
  let found ← firstIndex
    (fun i => (T.linkInfoList.get? i).map fun info => info.linkId = linkId) T.linkCount
  match found with
  | none => some (false, [])
  | some _ => some (true, [⟨.txDoneCleanup, linkId⟩, ⟨.setLinkDown, linkId⟩])

/-- The calls made.  The list of links is left as it is. -/
def pfmLinkClose (T : LinkTable) (linkName : CStr) : Option (List DevCall) := do
  let found ← firstIndex
    (fun i => (T.linkInfoList.get? i).map fun info => info.name = linkName) T.linkCount
  match found with
  | none => some []
  | some i => do
      let info ← T.linkInfoList.get? i
      let stopped ← linkStop T info.linkId
      some stopped.2

/-- The calls made.  What they return is not looked at. -/
def linkStateChange (E : RteEthdev) (linkId : Int) (desiredState : OpsState) : List DevCall :=
  let port := UInt16.ofInt linkId
  if E.isValidPort port = false then []
  else if desiredState = .enabled then [⟨.stop, port⟩, ⟨.start, port⟩]
  else [⟨.stop, port⟩]

/-- Whether devices are started, and whether their links are left set down. -/
structure Devices where
  started : UInt16 → Bool
  down : UInt16 → Bool

/-- Program start. -/
def Devices.init : Devices := ⟨fun _ => false, fun _ => false⟩

/-- Setting a link down and starting a device may fail.  A device that is started has its
link up. -/
def Devices.call (V : Devices) (succeeds : Bool) (c : DevCall) : Devices :=
  match c.fn with
  | .txDoneCleanup => V
  | .setLinkDown =>
      if succeeds then { V with down := Function.update V.down c.port true } else V
  | .stop => { V with started := Function.update V.started c.port false }
  | .start =>
      if succeeds then
        ⟨Function.update V.started c.port true, Function.update V.down c.port false⟩
      else V

def Devices.calls (V : Devices) (succeeds : Bool) (cs : List DevCall) : Devices :=
  cs.foldl (fun V c => V.call succeeds c) V

/-- The calls of `link_start`. -/
def Devices.ethCalls (V : Devices) (cs : List EthCall) : Devices :=
  cs.foldl (fun V c => if c.fn = .start ∧ c.ret = 0 then V.call true ⟨.start, c.port⟩ else V) V

/-! ### Interfaces -/

/-- `ETH_LINK_DOWN`. -/
abbrev ethLinkDown : UInt8 := 0

/-- What an interface is told of its link. -/
def carrierOf (desiredState : OpsState) : UInt8 :=
  if desiredState = .enabled then ethLinkUp else ethLinkDown

/-- The call of `rte_kni_update_link`, none for an interface without a pointer. -/
def kniSetState (kni : KniEntry Kni) (desiredState : OpsState) : Option (Kni × UInt8) :=
  kni.ptr.map fun ptr => (ptr, carrierOf desiredState)

/-- A run of `ip addr add` or `ip addr del`: the address, the mask and the device. -/
structure IpCommand where
  add : Bool
  ipAddr : PfmIpAddr
  maskLen : Int
  ifName : CStr

/-- The command for the address of an interface. -/
def ipCommand (kni : KniEntry Kni) : IpCommand where
  add := kni.opsState = .enabled
  ipAddr := kni.ipAddr
  maskLen := kni.subnetMaskLen
  ifName := kni.name

/-- The child process that is to run a command.  `waited` is whether `waitpid` tells how it
ended. -/
inductive Child where
  | forkFailed
  /-- `execvp` returns, and the child exits with 0 -/
  | execFailed (waited : Bool)
  /-- the exit status is that of a command that ends normally -/
  | ran (waited : Bool) (exitStatus : Option UInt8)

/-- The command is run. -/
def Child.Runs : Child → Prop
  | .ran _ _ => True
  | _ => False

instance : DecidablePred Child.Runs
  | .forkFailed => inferInstanceAs (Decidable False)
  | .execFailed _ => inferInstanceAs (Decidable False)
  | .ran _ _ => inferInstanceAs (Decidable True)

/-- The characters of a number. -/
def decimalLen (n : Int) : Nat := (Nat.toDigits 10 n.natAbs).length + if n < 0 then 1 else 0

/-- The characters of an address and its mask, as in `192.168.57.200/24`. -/
def ipAddrLen (ipAddr : PfmIpAddr) (maskLen : Int) : Nat :=
  let octet (shift : UInt32) : Nat := decimalLen ((ipAddr >>> shift) &&& 0xFF).toNat
  octet 24 + 1 + octet 16 + 1 + octet 8 + 1 + octet 0 + 1 + decimalLen maskLen

/-- The size of `str_ip_addr`. -/
abbrev strIpAddrLen : Nat := 24

/-- What it returns, and the command that was run. -/
def ipAddrConfig (child : Child) (kni : KniEntry Kni) : Option (PfmRetval × Option IpCommand) :=
  if ipAddrLen kni.ipAddr kni.subnetMaskLen < strIpAddrLen then
    match child with
    | .forkFailed =>
        -- the message has the mask for `%s`
        if kni.subnetMaskLen = 0 then some (.failed, none) else none
    | .execFailed waited => some (if waited then .success else .failed, none)
    | .ran waited exitStatus =>
        some (if waited ∧ exitStatus = some 0 then .success else .failed, some (ipCommand kni))
  else none

/-- A turn of the loop that configures the addresses.  A failure is only logged. -/
def ipAddrTurn (children : Nat → Child) (L : KniList Kni) (idx : Nat)
    (commands : List IpCommand) : Option (List IpCommand) := do
  let kni ← L.kniInfoList.get? idx
  let out ← ipAddrConfig (children idx) kni
  some (commands ++ out.2.toList)

/-- `kni_info_list_g` with `first_call`, the carriers last asked for, and the commands
run. -/
structure KniSys (Kni : Type) where
  list : KniList Kni
  firstCall : Bool
  carrier : Kni → Option UInt8
  commands : List IpCommand

/-- Program start. -/
def KniSys.init (Kni : Type) : KniSys Kni := ⟨KniList.init Kni, true, fun _ => none, []⟩

section kni

variable [DecidableEq Kni]

/-- Some calls of `rte_kni_update_link`. -/
def updateLinks (carrier : Kni → Option UInt8) (calls : List (Kni × UInt8)) :
    Kni → Option UInt8 :=
  calls.foldl (fun carrier call => Function.update carrier call.1 (some call.2)) carrier

/-- The interfaces of the link with a pointer are told; the first call configures the
addresses of all interfaces there are. -/
def kniStateChange (children : Nat → Child) (K : KniSys Kni) (linkId : Int)
    (desiredState : OpsState) : Option (KniSys Kni) :=
  let told := (K.list.entries.filter fun kni => kni.linkId = linkId).filterMap
    fun kni => kniSetState kni desiredState
  let K := { K with carrier := updateLinks K.carrier told }
  if K.firstCall then
    (forRange (ipAddrTurn children K.list) K.list.kniCount K.commands).map fun commands =>
      { K with firstCall := false, commands := commands }
  else some K

/-- The links and the interfaces, as the monitor works on them. -/
structure MonitorState (Kni : Type) where
  table : LinkTable
  knis : KniSys Kni

/-- One turn of the loop of `link_statemonitor_pthread_func`. -/
def linkMonitorTurn (up : UInt16 → Bool) (i : Nat) (children : Nat → Child)
    (S : MonitorState Kni) : Option (MonitorState Kni) := do
  let info ← S.table.linkInfoList.get? i
  let currState : OpsState := if up info.linkId then .enabled else .disabled
  if currState ≠ info.opsState then do
    let list ← S.table.linkInfoList.set? i { info with opsState := currState }
    -- `link_state_change_callback`
    let knis ← kniStateChange children S.knis info.linkId.toNat currState
    some ⟨{ S.table with linkInfoList := list }, knis⟩
  else some S

/-- What the turn finds of a link is not what the list says of it. -/
def linkChanges (up : UInt16 → Bool) (T : LinkTable) (i : Nat) : Bool :=
  (T.linkInfoList.get? i).any fun info =>
    (if up info.linkId then OpsState.enabled else .disabled) ≠ info.opsState

end kni

/-! ### The whole -/

/-- The links, the interfaces and the devices.  To say what holds of them it is counted
how often the state of a link has changed, at present and when an interface was opened. -/
structure LinkSys (Kni : Type) where
  table : LinkTable
  knis : KniSys Kni
  devices : Devices
  changed : Nat → Nat
  openedAt : Kni → Nat

/-- Program start. -/
def LinkSys.init (Kni : Type) : LinkSys Kni :=
  ⟨LinkTable.init, KniSys.init Kni, Devices.init, fun _ => 0, fun _ => 0⟩

/-- A call of `pfm_link_open` or `pfm_link_close`, of `kni_open` or `kni_close`, an
interface configured by the kernel, or a turn of the link monitor. -/
inductive LinkSysEvent (Kni : Type) where
  | linkOpened (c : LinkOpenCall)
  /-- whether `rte_eth_dev_set_link_down` succeeds -/
  | linkClosed (linkName : CStr) (downs : Bool)
  | kniOpened (env : KniOpenEnv Kni) (args : KniOpenArgs)
  | kniClosed (kni : Kni)
  /-- whether `rte_eth_dev_start` succeeds -/
  | config (kniId : UInt16) (kniState : UInt8) (starts : Bool)
  /-- the children are those of the commands it runs -/
  | monitor (up : UInt16 → Bool) (i : Nat) (children : Nat → Child)

/-- The id of a port. -/
def IsPort (linkId : Int) : Prop := 0 ≤ linkId ∧ linkId < 65536

instance (linkId : Int) : Decidable (IsPort linkId) := inferInstanceAs (Decidable (_ ∧ _))

section sys

variable [DecidableEq Kni]

/-- A call of `kni_open` for a port; `rte_kni_alloc` gives a pointer that is not in use. -/
def LinkSys.openKni (R : LinkSys Kni) (env : KniOpenEnv Kni) (args : KniOpenArgs) : LinkSys Kni :=
  let out := kniOpen env R.knis.list args
  match out.2 with
  | none => R
  | some ptr =>
      { R with
        knis := { R.knis with
          list := out.1
          carrier := Function.update R.knis.carrier ptr none }
        openedAt := Function.update R.openedAt ptr (R.changed args.linkId.toNat) }

/-- The calls of `link_state_change` that a configured interface leads to. -/
def LinkSys.changeLinks (E : RteEthdev) (V : Devices) (starts : Bool)
    (calls : List (Int × OpsState)) : Devices :=
  calls.foldl (fun V call => V.calls starts (linkStateChange E call.1 call.2)) V

def linkSysStep (E : RteEthdev) (R : LinkSys Kni) : LinkSysEvent Kni → Option (LinkSys Kni)
  | .linkOpened c => (pfmLinkOpen E c.rets R.table c.linkName).map fun out =>
      { R with table := out.2.1, devices := R.devices.ethCalls out.2.2 }
  | .linkClosed linkName downs => (pfmLinkClose R.table linkName).map fun calls =>
      { R with devices := R.devices.calls downs calls }
  | .kniOpened env args =>
      if IsPort args.linkId ∧ ¬R.knis.list.Any fun kni => kni.ptr.isSome ∧ kni.ptr = env.kniAlloc
      then some (R.openKni env args)
      else none
  | .kniClosed kni => (kniClose R.knis.list kni).map fun L =>
      { R with knis := { R.knis with list := L } }
  | .config kniId kniState starts =>
      let out := callbackFuncKniIfConfig R.knis.list kniId kniState
      some { R with
        knis := { R.knis with list := out.1 }
        devices := LinkSys.changeLinks E R.devices starts out.2 }
  | .monitor up i children =>
      if i < R.table.linkCount then
        (linkMonitorTurn up i children ⟨R.table, R.knis⟩).map fun S =>
          { R with
            table := S.table
            knis := S.knis
            changed := if linkChanges up R.table i then
              Function.update R.changed i (R.changed i + 1) else R.changed }
      else none

/-- What a step leaves, and what its guards say. -/
inductive LinkSysOutcome (E : RteEthdev) (R : LinkSys Kni) : LinkSysEvent Kni → LinkSys Kni → Prop
  | linkOpened {c : LinkOpenCall} {ret : Int} {T : LinkTable} {calls : List EthCall}
      (hopen : pfmLinkOpen E c.rets R.table c.linkName = some (ret, T, calls)) :
      LinkSysOutcome E R (.linkOpened c)
        { R with table := T, devices := R.devices.ethCalls calls }
  | linkClosed {linkName : CStr} {downs : Bool} {calls : List DevCall}
      (hclose : pfmLinkClose R.table linkName = some calls) :
      LinkSysOutcome E R (.linkClosed linkName downs)
        { R with devices := R.devices.calls downs calls }
  | kniOpened {env : KniOpenEnv Kni} {args : KniOpenArgs} (hport : IsPort args.linkId)
      (hfresh : ¬R.knis.list.Any fun kni => kni.ptr.isSome ∧ kni.ptr = env.kniAlloc) :
      LinkSysOutcome E R (.kniOpened env args) (R.openKni env args)
  | kniClosed {kni : Kni} {L : KniList Kni} (hclose : kniClose R.knis.list kni = some L) :
      LinkSysOutcome E R (.kniClosed kni) { R with knis := { R.knis with list := L } }
  | config (kniId : UInt16) (kniState : UInt8) (starts : Bool) :
      LinkSysOutcome E R (.config kniId kniState starts)
        { R with
          knis := { R.knis with list := (callbackFuncKniIfConfig R.knis.list kniId kniState).1 }
          devices := LinkSys.changeLinks E R.devices starts
            (callbackFuncKniIfConfig R.knis.list kniId kniState).2 }
  | monitor {up : UInt16 → Bool} {i : Nat} {children : Nat → Child} {S : MonitorState Kni}
      (hi : i < R.table.linkCount)
      (hturn : linkMonitorTurn up i children ⟨R.table, R.knis⟩ = some S) :
      LinkSysOutcome E R (.monitor up i children)
        { R with
          table := S.table
          knis := S.knis
          changed := if linkChanges up R.table i then
            Function.update R.changed i (R.changed i + 1) else R.changed }

theorem linkSysStep_outcome {E : RteEthdev} {R R' : LinkSys Kni} {e : LinkSysEvent Kni}
    (hstep : linkSysStep E R e = some R') : LinkSysOutcome E R e R' := by
  cases e with
  | linkOpened c =>
      obtain ⟨out, hopen, rfl⟩ := Option.map_eq_some_iff.mp hstep
      exact .linkOpened hopen
  | linkClosed linkName downs =>
      obtain ⟨calls, hclose, rfl⟩ := Option.map_eq_some_iff.mp hstep
      exact .linkClosed hclose
  | kniOpened env args =>
      simp only [linkSysStep] at hstep
      split at hstep
      · rename_i hguard
        obtain rfl := Option.some.inj hstep
        exact .kniOpened hguard.1 hguard.2
      · cases hstep
  | kniClosed kni =>
      obtain ⟨L, hclose, rfl⟩ := Option.map_eq_some_iff.mp hstep
      exact .kniClosed hclose
  | config kniId kniState starts =>
      obtain rfl := Option.some.inj hstep
      exact .config kniId kniState starts
  | monitor up i children =>
      simp only [linkSysStep] at hstep
      split at hstep
      · rename_i hi
        obtain ⟨S, hturn, rfl⟩ := Option.map_eq_some_iff.mp hstep
        exact .monitor hi hturn
      · cases hstep

end sys

/-! ### What the functions do -/

theorem KniList.mem_entries {L : KniList Kni} {kni : KniEntry Kni} :
    kni ∈ L.entries ↔ ∃ j : Fin maxKniPorts, j.val < L.kniCount ∧ L.kniInfoList j = kni := by
  rw [KniList.entries, CArray.firstN, List.mem_take_iff_getElem]
  simp only [List.length_ofFn, List.getElem_ofFn]
  constructor
  · intro h
    obtain ⟨j, hj, heq⟩ := h
    exact ⟨⟨j, (Nat.lt_min.mp hj).2⟩, (Nat.lt_min.mp hj).1, heq⟩
  · intro h
    obtain ⟨j, hj, heq⟩ := h
    exact ⟨j.val, Nat.lt_min.mpr ⟨hj, j.isLt⟩, heq⟩

theorem LinkOpenOutcome.of_run {E : RteEthdev} {T T' : LinkTable} (hplaces : Places T)
    {c : LinkOpenCall} {ret : Int} {calls : List EthCall}
    (hopen : pfmLinkOpen E c.rets T c.linkName = some (ret, T', calls)) :
    LinkOpenOutcome E T c ret T' calls := by
  obtain ⟨ret', T'', calls', hrun, hout⟩ := pfmLinkOpen_cases (E := E) hplaces c
  cases hrun.symm.trans hopen
  exact hout

/-- The commands of the interfaces whose child process runs one. -/
def ranCommands (children : Nat → Child) (knis : List (KniEntry Kni)) : List IpCommand :=
  knis.zipIdx.filterMap fun x => if (children x.2).Runs then some (ipCommand x.1) else none

/-- A child process that could not be made was to configure a mask of length 0. -/
def ForksLogged (children : Nat → Child) (knis : List (KniEntry Kni)) : Prop :=
  ∀ x ∈ knis.zipIdx, children x.2 = .forkFailed → x.1.subnetMaskLen = 0

theorem ipAddrConfig_eq_some {child : Child} {kni : KniEntry Kni}
    {out : PfmRetval × Option IpCommand} (h : ipAddrConfig child kni = some out) :
    out.2 = (if child.Runs then some (ipCommand kni) else none) ∧
      (child = .forkFailed → kni.subnetMaskLen = 0) := by
  unfold ipAddrConfig at h
  split at h
  swap
  · cases h
  cases child with
  | forkFailed =>
      dsimp only at h
      split at h
      · rename_i hmask
        obtain rfl := Option.some.inj h
        exact ⟨(if_neg id).symm, fun _ => hmask⟩
      · cases h
  | execFailed waited =>
      obtain rfl := Option.some.inj h
      exact ⟨(if_neg id).symm, nofun⟩
  | ran waited exitStatus =>
      obtain rfl := Option.some.inj h
      exact ⟨(if_pos trivial).symm, nofun⟩

theorem ranCommands_concat (children : Nat → Child) (knis : List (KniEntry Kni))
    (kni : KniEntry Kni) : ranCommands children (knis ++ [kni]) = ranCommands children knis ++
      (if (children knis.length).Runs then some (ipCommand kni) else none).toList := by
  rw [ranCommands, List.zipIdx_append, List.filterMap_append, Nat.zero_add]
  rfl

theorem ForksLogged.concat {children : Nat → Child} {knis : List (KniEntry Kni)}
    {kni : KniEntry Kni} (h : ForksLogged children knis)
    (hkni : children knis.length = .forkFailed → kni.subnetMaskLen = 0) :
    ForksLogged children (knis ++ [kni]) := by
  intro x hx
  rw [List.zipIdx_append, Nat.zero_add] at hx
  rcases List.mem_append.mp hx with hold | hnew
  · exact h x hold
  · obtain rfl := List.mem_singleton.mp hnew
    exact hkni

/-- The loop runs the commands of the interfaces in order. -/
theorem ipAddrLoop_commands {children : Nat → Child} {L : KniList Kni}
    {commands commands' : List IpCommand}
    (h : forRange (ipAddrTurn children L) L.kniCount commands = some commands') :
    commands' = commands ++ ranCommands children L.entries ∧ ForksLogged children L.entries := by
  let Inv (k : Nat) (cs : List IpCommand) : Prop :=
    cs = commands ++ ranCommands children (L.kniInfoList.firstN k) ∧
      ForksLogged children (L.kniInfoList.firstN k)
  have hstart : Inv 0 commands := ⟨(List.append_nil _).symm, nofun⟩
  refine forRange_invariant Inv hstart (fun k cs cs' hk hinv hturn => ?_) h
  obtain ⟨rfl, hlogged⟩ := hinv
  obtain ⟨kni, hget, hturn⟩ := Option.bind_eq_some_iff.mp hturn
  obtain ⟨out, hout, hturn⟩ := Option.bind_eq_some_iff.mp hturn
  obtain rfl := Option.some.inj hturn
  obtain ⟨hran, hmask⟩ := ipAddrConfig_eq_some hout
  have hlength : (L.kniInfoList.firstN k).length = k := by
    rw [CArray.firstN, List.length_take, List.length_ofFn]
    exact Nat.min_eq_left (Nat.le_of_lt (CArray.lt_of_get? hget))
  simp only [Inv, CArray.firstN_succ hget]
  refine ⟨?_, hlogged.concat fun hfork => hmask ?_⟩
  · rw [ranCommands_concat, hlength, List.append_assoc, hran]
  · rwa [hlength] at hfork

section functions

variable [DecidableEq Kni] {K : KniSys Kni}

theorem updateLinks_apply {carrier : Kni → Option UInt8} {calls : List (Kni × UInt8)} {v : UInt8}
    (hv : ∀ call ∈ calls, call.2 = v) (p : Kni) :
    updateLinks carrier calls p = if p ∈ calls.map Prod.fst then some v else carrier p := by
  induction calls generalizing carrier with
  | nil => rfl
  | cons call calls ih =>
      have hrest : ∀ call ∈ calls, call.2 = v := fun c hc => hv c (List.mem_cons_of_mem _ hc)
      have hcons : updateLinks carrier (call :: calls) =
          updateLinks (Function.update carrier call.1 (some call.2)) calls := rfl
      rw [hcons, ih hrest, hv call List.mem_cons_self, List.map_cons]
      by_cases hmem : p ∈ calls.map Prod.fst
      · rw [if_pos hmem, if_pos (List.mem_cons_of_mem _ hmem)]
      rw [if_neg hmem]
      by_cases hp : p = call.1
      · subst hp
        rw [Function.update_self, if_pos (by simp)]
      · rw [Function.update_of_ne hp, if_neg (by simpa [hp] using hmem)]

/-- What `kni_state_change` leaves: the interfaces of the link show the state of the link,
and the addresses are configured once. -/
structure KniStateChanged (children : Nat → Child) (K : KniSys Kni) (linkId : Int)
    (desiredState : OpsState) (K' : KniSys Kni) : Prop where
  list : K'.list = K.list
  firstCall : K'.firstCall = false
  told : ∀ p, (∃ kni ∈ K.list.entries, kni.linkId = linkId ∧ kni.ptr = some p) →
    K'.carrier p = some (carrierOf desiredState)
  others : ∀ p, (¬∃ kni ∈ K.list.entries, kni.linkId = linkId ∧ kni.ptr = some p) →
    K'.carrier p = K.carrier p
  kept : K.firstCall = false → K'.commands = K.commands
  first : K.firstCall = true → K'.commands = K.commands ++ ranCommands children K.list.entries ∧
    ForksLogged children K.list.entries

theorem kniStateChange_changed {children : Nat → Child} {K K' : KniSys Kni} {linkId : Int}
    {desiredState : OpsState} (h : kniStateChange children K linkId desiredState = some K') :
    KniStateChanged children K linkId desiredState K' := by
  let told := (K.list.entries.filter fun kni => decide (kni.linkId = linkId)).filterMap
    fun kni => kniSetState kni desiredState
  have htold : ∀ call ∈ told, call.2 = carrierOf desiredState := by
    intro call hcall
    obtain ⟨kni, -, hset⟩ := List.mem_filterMap.mp hcall
    obtain ⟨ptr, -, rfl⟩ := Option.map_eq_some_iff.mp hset
    rfl
  have hmem (p : Kni) : p ∈ told.map Prod.fst ↔
      ∃ kni ∈ K.list.entries, kni.linkId = linkId ∧ kni.ptr = some p := by
    constructor
    · intro h
      obtain ⟨call, hcall, rfl⟩ := List.mem_map.mp h
      obtain ⟨kni, hkni, hset⟩ := List.mem_filterMap.mp hcall
      obtain ⟨hkni, hlink⟩ := List.mem_filter.mp hkni
      obtain ⟨ptr, hptr, rfl⟩ := Option.map_eq_some_iff.mp hset
      exact ⟨kni, hkni, of_decide_eq_true hlink, hptr⟩
    · intro h
      obtain ⟨kni, hkni, hlink, hptr⟩ := h
      refine List.mem_map.mpr ⟨(p, carrierOf desiredState), ?_, rfl⟩
      refine List.mem_filterMap.mpr ⟨kni, List.mem_filter.mpr ⟨hkni, decide_eq_true hlink⟩, ?_⟩
      rw [kniSetState, hptr]
      rfl
  have hshown (p : Kni) (hp : ∃ kni ∈ K.list.entries, kni.linkId = linkId ∧ kni.ptr = some p) :
      updateLinks K.carrier told p = some (carrierOf desiredState) := by
    rw [updateLinks_apply htold, if_pos ((hmem p).mpr hp)]
  have hkept (p : Kni) (hp : ¬∃ kni ∈ K.list.entries, kni.linkId = linkId ∧ kni.ptr = some p) :
      updateLinks K.carrier told p = K.carrier p := by
    rw [updateLinks_apply htold, if_neg (mt (hmem p).mp hp)]
  unfold kniStateChange at h
  dsimp only at h
  split at h
  · rename_i hfirst
    obtain ⟨commands, hloop, rfl⟩ := Option.map_eq_some_iff.mp h
    refine ⟨rfl, rfl, hshown, hkept, fun hno => ?_, fun _ => ipAddrLoop_commands hloop⟩
    cases hfirst.symm.trans hno
  · rename_i hfirst
    obtain rfl := Option.some.inj h
    exact ⟨rfl, Bool.eq_false_iff.mpr hfirst, hshown, hkept, fun _ => rfl,
      fun hyes => absurd hyes hfirst⟩

/-- A turn of the monitor at an open link. -/
theorem linkMonitorTurn_cases {up : UInt16 → Bool} {i : Nat} {children : Nat → Child}
    {S S' : MonitorState Kni} {info : LinkInfo} (hget : S.table.linkInfoList.get? i = some info)
    (hturn : linkMonitorTurn up i children S = some S') :
    (linkChanges up S.table i = false ∧ S' = S) ∨
    ∃ currState list knis, linkChanges up S.table i = true ∧
      S.table.linkInfoList.set? i { info with opsState := currState } = some list ∧
      KniStateChanged children S.knis info.linkId.toNat currState knis ∧
      S' = ⟨{ S.table with linkInfoList := list }, knis⟩ := by
  unfold linkMonitorTurn at hturn
  unfold linkChanges
  rw [hget, Option.bind_eq_bind, Option.bind_some] at hturn
  rw [hget, Option.any_some]
  dsimp only at hturn ⊢
  revert hturn
  generalize (if up info.linkId then OpsState.enabled else .disabled) = currState
  intro hturn
  by_cases hsame : currState = info.opsState
  · rw [if_neg (not_not.mpr hsame)] at hturn
    exact Or.inl ⟨by simpa using hsame, (Option.some.inj hturn).symm⟩
  · rw [if_pos hsame] at hturn
    obtain ⟨list, hset, hturn⟩ := Option.bind_eq_some_iff.mp hturn
    obtain ⟨knis, hknis, hturn⟩ := Option.bind_eq_some_iff.mp hturn
    obtain rfl := Option.some.inj hturn
    exact Or.inr
      ⟨currState, list, knis, by simpa using hsame, hset, kniStateChange_changed hknis, rfl⟩

/-- A turn of the monitor leaves the list of interfaces and the number of links. -/
theorem linkMonitorTurn_list {up : UInt16 → Bool} {i : Nat} {children : Nat → Child}
    {S S' : MonitorState Kni} (hturn : linkMonitorTurn up i children S = some S') :
    S'.knis.list = S.knis.list ∧ S'.table.linkCount = S.table.linkCount := by
  obtain ⟨info, hget, -⟩ := Option.bind_eq_some_iff.mp hturn
  rcases linkMonitorTurn_cases hget hturn with ⟨-, rfl⟩ | ⟨currState, list, knis, -, -, hknis, rfl⟩
  · exact ⟨rfl, rfl⟩
  · exact ⟨hknis.list, rfl⟩

/-- The place of the link of a name. -/
def LinkTable.find (T : LinkTable) (linkName : CStr) : Option (Option Nat) :=
  firstIndex (fun i => (T.linkInfoList.get? i).map fun info => info.name = linkName) T.linkCount

/-- To close a link is to set it down. -/
theorem pfmLinkClose_cases {T : LinkTable} (hplaces : Places T) {linkName : CStr}
    {calls : List DevCall} (hclose : pfmLinkClose T linkName = some calls) :
    (T.find linkName = some none ∧ calls = []) ∨
    ∃ i, T.find linkName = some (some i) ∧
      calls = [⟨.txDoneCleanup, UInt16.ofNat i⟩, ⟨.setLinkDown, UInt16.ofNat i⟩] := by
  obtain ⟨found, hfind, hclose⟩ := Option.bind_eq_some_iff.mp hclose
  cases found with
  | none => exact Or.inl ⟨hfind, (Option.some.inj hclose).symm⟩
  | some i =>
      obtain ⟨info, hget, hclose⟩ := Option.bind_eq_some_iff.mp hclose
      obtain ⟨info', hget', hid⟩ := hplaces i (firstIndex_lt hfind)
      obtain rfl := Option.some.inj (hget.symm.trans hget')
      have hport : UInt16.ofNat i = info.linkId := by rw [← hid, UInt16.ofNat_toNat]
      obtain ⟨stopped, hstop, hcalls⟩ := Option.bind_eq_some_iff.mp hclose
      obtain rfl := Option.some.inj hcalls
      obtain ⟨found, hfound, hstop⟩ := Option.bind_eq_some_iff.mp hstop
      cases found with
      | none =>
          -- the link itself is in the list
          have hno := firstIndex_eq_none_iff.mp hfound i (firstIndex_lt hfind)
          rw [hget, Option.map_some, decide_eq_true rfl] at hno
          cases hno
      | some idx =>
          obtain rfl := Option.some.inj hstop
          exact Or.inr ⟨i, hfind, by rw [hport]⟩

section openKni

variable (R : LinkSys Kni) (env : KniOpenEnv Kni) (args : KniOpenArgs)

theorem LinkSys.openKni_list :
    (R.openKni env args).knis.list = (kniOpen env R.knis.list args).1 := by
  unfold LinkSys.openKni
  rcases kniOpen_outcome env R.knis.list args with ⟨hopen, -⟩ | ⟨L, kni, ptr, hopen, -⟩
  · rw [hopen]
  · rw [hopen]

@[simp] theorem LinkSys.openKni_table : (R.openKni env args).table = R.table := by
  unfold LinkSys.openKni
  dsimp only
  split <;> rfl

@[simp] theorem LinkSys.openKni_devices : (R.openKni env args).devices = R.devices := by
  unfold LinkSys.openKni
  dsimp only
  split <;> rfl

@[simp] theorem LinkSys.openKni_firstCall :
    (R.openKni env args).knis.firstCall = R.knis.firstCall := by
  unfold LinkSys.openKni
  dsimp only
  split <;> rfl

@[simp] theorem LinkSys.openKni_commands :
    (R.openKni env args).knis.commands = R.knis.commands := by
  unfold LinkSys.openKni
  dsimp only
  split <;> rfl

end openKni

/-- An interface that is closed loses its pointer. -/
theorem kniClose_entries {L L' : KniList Kni} {kni : Kni} (hclose : kniClose L kni = some L') :
    L'.kniCount = L.kniCount ∧ ∀ j,
      (L'.kniInfoList j).linkId = (L.kniInfoList j).linkId ∧
      (L'.kniInfoList j).opsState = (L.kniInfoList j).opsState ∧
      ∀ p, (L'.kniInfoList j).ptr = some p → (L.kniInfoList j).ptr = some p := by
  unfold kniClose at hclose
  obtain ⟨found, -, hclose⟩ := Option.bind_eq_some_iff.mp hclose
  cases found with
  | none =>
      obtain rfl := Option.some.inj hclose
      exact ⟨rfl, fun _ => ⟨rfl, rfl, fun _ hp => hp⟩⟩
  | some idx =>
      dsimp only at hclose
      split at hclose
      swap
      · cases hclose
      obtain rfl := Option.some.inj hclose
      refine ⟨rfl, fun j => ?_⟩
      simp only [KniList.setPtr, Function.update_apply]
      split
      · rename_i heq
        rw [heq]
        refine ⟨rfl, rfl, fun p hp => ?_⟩
        cases hp
      · exact ⟨rfl, rfl, fun _ hp => hp⟩

end functions

/-! ### The carriers -/

/-- The carrier of an interface: not set when the state of the link has not changed since
the interface was opened, else that of the link at present. -/
def ShowsLink (R : LinkSys Kni) (kni : KniEntry Kni) (p : Kni) : Prop :=
  let i := kni.linkId.toNat
  R.openedAt p ≤ R.changed i ∧
    R.knis.carrier p =
      if R.changed i = R.openedAt p then none
      else (R.table.linkInfoList.get? i).map fun info => carrierOf info.opsState

structure CarrierInv (R : LinkSys Kni) : Prop where
  places : Places R.table
  quiet : ∀ i, R.table.linkCount ≤ i → R.changed i = 0
  port : ∀ j : Fin maxKniPorts, j.val < R.knis.list.kniCount →
    IsPort (R.knis.list.kniInfoList j).linkId
  distinct : ∀ j k : Fin maxKniPorts, ∀ p, j.val < R.knis.list.kniCount →
    k.val < R.knis.list.kniCount → (R.knis.list.kniInfoList j).ptr = some p →
    (R.knis.list.kniInfoList k).ptr = some p → j = k
  shown : ∀ j : Fin maxKniPorts, ∀ p, j.val < R.knis.list.kniCount →
    (R.knis.list.kniInfoList j).ptr = some p → ShowsLink R (R.knis.list.kniInfoList j) p

theorem CarrierInv.init : CarrierInv (LinkSys.init Kni) where
  places _ hi := absurd hi (Nat.not_lt_zero _)
  quiet _ _ := rfl
  port _ hj := absurd hj (Nat.not_lt_zero _)
  distinct _ _ _ hj := absurd hj (Nat.not_lt_zero _)
  shown _ _ hj := absurd hj (Nat.not_lt_zero _)

section carrier

variable {E : RteEthdev} {R R' : LinkSys Kni}

/-- Pointers that were given up, and anything else that does not concern the carriers. -/
theorem CarrierInv.weaken (h : CarrierInv R) {L : KniList Kni} {devices : Devices}
    (hcount : L.kniCount = R.knis.list.kniCount)
    (hlink : ∀ j, (L.kniInfoList j).linkId = (R.knis.list.kniInfoList j).linkId)
    (hptr : ∀ j p, (L.kniInfoList j).ptr = some p → (R.knis.list.kniInfoList j).ptr = some p) :
    CarrierInv { R with knis := { R.knis with list := L }, devices := devices } where
  places := h.places
  quiet := h.quiet
  port j hj := by
    dsimp only at hj ⊢
    rw [hlink]
    exact h.port j (hcount ▸ hj)
  distinct j k p hj hk hpj hpk :=
    h.distinct j k p (hcount ▸ hj) (hcount ▸ hk) (hptr j p hpj) (hptr k p hpk)
  shown j p hj hp := by
    have hshown := h.shown j p (hcount ▸ hj) (hptr j p hp)
    simp only [ShowsLink] at hshown ⊢
    rw [hlink]
    exact hshown

theorem LinkOpenOutcome.count_le {T T' : LinkTable} {c : LinkOpenCall} {ret : Int}
    {calls : List EthCall} (h : LinkOpenOutcome E T c ret T' calls) :
    T.linkCount ≤ T'.linkCount := by
  cases h with
  | reused => exact Nat.le_refl _
  | refused _ _ _ _ _ _ count => exact Nat.le_of_eq count.symm
  | added _ _ _ _ _ count => exact count ▸ Nat.le_succ _

/-- A link is opened. -/
theorem CarrierInv.linkOpened (h : CarrierInv R) (c : LinkOpenCall) {devices : Devices}
    {ret : Int} {T : LinkTable} {calls : List EthCall}
    (hout : LinkOpenOutcome E R.table c ret T calls) :
    CarrierInv { R with table := T, devices := devices } := by
  have hkept : ∀ i, i < R.table.linkCount →
      T.linkInfoList.get? i = R.table.linkInfoList.get? i := by
    cases hout with
    | reused => exact fun _ _ => rfl
    | refused _ _ _ _ _ _ _ rest => exact rest
    | added _ _ _ _ _ _ rest => exact rest
  have hcount := hout.count_le
  have hplaces : Places T := by
    cases hout with
    | reused => exact h.places
    | refused _ _ _ _ _ _ count rest => exact h.places.kept count rest
    | added _ _ info _ _ count rest entry _ id => exact h.places.added count rest entry id
  refine ⟨hplaces, fun i hi => h.quiet i (Nat.le_trans hcount hi), h.port, h.distinct, ?_⟩
  intro j p hj hp
  obtain ⟨hle, hcarrier⟩ := h.shown j p hj hp
  refine ⟨hle, hcarrier.trans ?_⟩
  dsimp only
  split
  · rfl
  · rename_i hchanged
    rw [hkept]
    -- a link whose state has changed is open
    by_contra hnew
    have hzero := h.quiet _ (Nat.not_lt.mp hnew)
    omega

/-- An entry behind the others. -/
theorem KniCreated.get {env : KniOpenEnv Kni} {L L' : KniList Kni} {args : KniOpenArgs}
    {kni : KniEntry Kni} {kniPtr : Kni} (h : KniCreated env L args L' kni kniPtr)
    (j : Fin maxKniPorts) :
    L'.kniInfoList j = if j.val = L.kniCount then kni else L.kniInfoList j := by
  have hget := CArray.get?_set? h.entry j.val
  rw [CArray.get?_of_lt _ j.isLt, CArray.get?_of_lt _ j.isLt] at hget
  split at hget
  · rename_i hj
    rw [if_pos hj]
    exact Option.some.inj hget
  · rename_i hj
    rw [if_neg hj]
    exact Option.some.inj hget

variable [DecidableEq Kni]

/-- An interface is opened. -/
theorem CarrierInv.kniOpened (h : CarrierInv R) {env : KniOpenEnv Kni} {args : KniOpenArgs}
    (hport : IsPort args.linkId)
    (hfree : ¬R.knis.list.Any fun kni => kni.ptr.isSome ∧ kni.ptr = env.kniAlloc) :
    CarrierInv (R.openKni env args) := by
  rcases kniOpen_outcome env R.knis.list args with ⟨hopen, -⟩ | ⟨L, kni, ptr, hopen, hnew⟩
  · rw [LinkSys.openKni, hopen]
    exact h
  rw [LinkSys.openKni, hopen]
  dsimp only
  -- the new pointer is that of no other interface
  have hother {j : Fin maxKniPorts} {p : Kni} (hj : j.val < R.knis.list.kniCount)
      (hp : (R.knis.list.kniInfoList j).ptr = some p) : p ≠ ptr := by
    intro heq
    subst heq
    exact hfree ⟨j, hj, Option.isSome_of_eq_some hp, hp.trans hnew.alloc.symm⟩
  have hold {j : Fin maxKniPorts} (hj : j.val < L.kniCount) (hne : j.val ≠ R.knis.list.kniCount) :
      j.val < R.knis.list.kniCount ∧ L.kniInfoList j = R.knis.list.kniInfoList j := by
    have hlt : j.val < R.knis.list.kniCount + 1 := hnew.count ▸ hj
    exact ⟨by omega, (hnew.get j).trans (if_neg hne)⟩
  have hlast {j : Fin maxKniPorts} (hj : j.val = R.knis.list.kniCount) : L.kniInfoList j = kni :=
    (hnew.get j).trans (if_pos hj)
  refine ⟨h.places, h.quiet, fun j hj => ?_, fun j k p hj hk hpj hpk => ?_, fun j p hj hp => ?_⟩
  · by_cases hjl : j.val = R.knis.list.kniCount
    · rw [hlast hjl, hnew.linkId]
      exact hport
    · obtain ⟨hlt, heq⟩ := hold hj hjl
      rw [heq]
      exact h.port j hlt
  · by_cases hjl : j.val = R.knis.list.kniCount
    · by_cases hkl : k.val = R.knis.list.kniCount
      · exact Fin.ext (hjl.trans hkl.symm)
      · obtain ⟨hlt, heq⟩ := hold hk hkl
        rw [hlast hjl, hnew.ptr] at hpj
        rw [heq] at hpk
        exact absurd (Option.some.inj hpj).symm (hother hlt hpk)
    · obtain ⟨hltj, heqj⟩ := hold hj hjl
      rw [heqj] at hpj
      by_cases hkl : k.val = R.knis.list.kniCount
      · rw [hlast hkl, hnew.ptr] at hpk
        exact absurd (Option.some.inj hpk).symm (hother hltj hpj)
      · obtain ⟨hltk, heqk⟩ := hold hk hkl
        rw [heqk] at hpk
        exact h.distinct j k p hltj hltk hpj hpk
  · by_cases hjl : j.val = R.knis.list.kniCount
    · rw [hlast hjl] at hp ⊢
      obtain rfl := Option.some.inj (hp.symm.trans hnew.ptr)
      simp only [ShowsLink, Function.update_self, hnew.linkId, if_true]
      exact ⟨Nat.le_refl _, trivial⟩
    · obtain ⟨hlt, heq⟩ := hold hj hjl
      rw [heq] at hp ⊢
      have hshown := h.shown j p hlt hp
      simp only [ShowsLink, Function.update_of_ne (hother hlt hp)] at hshown ⊢
      exact hshown

/-- A turn of the monitor. -/
theorem CarrierInv.monitor (h : CarrierInv R) {up : UInt16 → Bool} {i : Nat}
    {children : Nat → Child} {S : MonitorState Kni} (hi : i < R.table.linkCount)
    (hturn : linkMonitorTurn up i children ⟨R.table, R.knis⟩ = some S) :
    CarrierInv { R with
      table := S.table
      knis := S.knis
      changed := if linkChanges up R.table i then
        Function.update R.changed i (R.changed i + 1) else R.changed } := by
  obtain ⟨info, hget, hid⟩ := h.places i hi
  rcases linkMonitorTurn_cases hget hturn with
    ⟨hsame, rfl⟩ | ⟨currState, list, knis, hchanges, hset, hknis, rfl⟩
  · simp only [hsame, Bool.false_eq_true, if_false]
    exact h
  dsimp only at hchanges hset hknis ⊢
  simp only [hchanges, if_true]
  refine ⟨fun i' hi' => ?_, fun i' hi' => ?_, ?_, ?_, ?_⟩
  · rw [CArray.get?_set? hset]
    split
    · rename_i heq
      subst heq
      exact ⟨_, rfl, hid⟩
    · exact h.places i' hi'
  · have hne : i' ≠ i := fun heq => absurd hi (Nat.not_lt.mpr (heq ▸ hi'))
    dsimp only
    rw [Function.update_of_ne hne]
    exact h.quiet i' hi'
  · rw [hknis.list]
    exact h.port
  · rw [hknis.list]
    exact h.distinct
  · intro j p hj hp
    simp only [hknis.list] at hj hp ⊢
    have hshown := h.shown j p hj hp
    have hport := (h.port j hj).1
    simp only [ShowsLink] at hshown ⊢
    by_cases hlink : (R.knis.list.kniInfoList j).linkId.toNat = i
    · -- an interface of the link
      have hmem : ∃ kni ∈ R.knis.list.entries,
          kni.linkId = (info.linkId.toNat : Int) ∧ kni.ptr = some p := by
        refine ⟨_, KniList.mem_entries.mpr ⟨j, hj, rfl⟩, ?_, hp⟩
        rw [hid, ← hlink, Int.toNat_of_nonneg hport]
      rw [hknis.told p hmem, hlink, Function.update_self, CArray.get?_set? hset, if_pos rfl]
      rw [hlink] at hshown
      refine ⟨Nat.le_succ_of_le hshown.1, ?_⟩
      rw [if_neg (by omega)]
      rfl
    · -- an interface of another one
      have hmem : ¬∃ kni ∈ R.knis.list.entries,
          kni.linkId = (info.linkId.toNat : Int) ∧ kni.ptr = some p := by
        intro hex
        obtain ⟨kni, hkni, hl, hptr⟩ := hex
        obtain ⟨k, hk, rfl⟩ := KniList.mem_entries.mp hkni
        obtain rfl := h.distinct j k p hj hk hp hptr
        rw [hl, hid, Int.toNat_natCast] at hlink
        exact hlink rfl
      rw [hknis.others p hmem, Function.update_of_ne hlink, CArray.get?_set? hset, if_neg hlink]
      exact hshown

theorem CarrierInv.kniClosed (h : CarrierInv R) {kni : Kni} {L : KniList Kni}
    (hclose : kniClose R.knis.list kni = some L) :
    CarrierInv { R with knis := { R.knis with list := L } } := by
  obtain ⟨hcount, hentry⟩ := kniClose_entries hclose
  exact h.weaken hcount (fun j => (hentry j).1) fun j => (hentry j).2.2

/-- **Every step** keeps the carriers. -/
theorem CarrierInv.step (h : CarrierInv R) {e : LinkSysEvent Kni}
    (hstep : linkSysStep E R e = some R') : CarrierInv R' := by
  cases linkSysStep_outcome hstep with
  | @linkOpened c ret T calls hopen =>
      exact h.linkOpened c (LinkOpenOutcome.of_run h.places hopen)
  | linkClosed => exact h.weaken rfl (fun _ => rfl) fun _ _ hp => hp
  | kniOpened hport hfresh => exact h.kniOpened hport hfresh
  | kniClosed hclose => exact h.kniClosed hclose
  | config kniId kniState starts =>
      rcases callbackFuncKniIfConfig_list R.knis.list kniId kniState with hsame | ⟨i, st, hset⟩
      · refine h.weaken ?_ ?_ ?_
        · rw [hsame]
        · intro j
          rw [hsame]
        · intro j p hp
          rwa [hsame] at hp
      · refine h.weaken ?_ ?_ ?_
        · rw [hset]
          rfl
        · intro j
          rw [hset, KniList.setOps_linkId]
        · intro j p hp
          rwa [hset, KniList.setOps_ptr] at hp
  | monitor hi hturn => exact h.monitor hi hturn

/-- **What an interface shows.**  At any time the carrier of an interface is that of its
link, if the link has changed since the interface was opened; else it was never set. -/
theorem carrier_exact {es : List (LinkSysEvent Kni)}
    (hrun : exec (linkSysStep E) (LinkSys.init Kni) es = some R) :
    ∀ kni ∈ R.knis.list.entries, ∀ p, kni.ptr = some p → ShowsLink R kni p := by
  have h : CarrierInv R :=
    exec_invariant (fun _ _ _ hinv hstep => hinv.step hstep) CarrierInv.init hrun
  intro kni hkni p hp
  obtain ⟨j, hj, rfl⟩ := KniList.mem_entries.mp hkni
  exact h.shown j p hj hp

end carrier

/-- A link is opened and an interface on it, and the link goes up. -/
def uplinkUp : List (LinkSysEvent Unit) :=
  [.linkOpened ⟨fun _ => 0, uplinkName⟩,
    .kniOpened ⟨0, none, some ()⟩ ⟨0, ngu0, 0xC0A839C8, 24⟩,
    .monitor (fun _ => true) 0 fun _ => .ran true (some 0)]

/-- The links and interfaces behind it. -/
def afterUplinkUp : Option (LinkSys Unit) :=
  exec (linkSysStep uplinkDev) (LinkSys.init Unit) uplinkUp

theorem carrier_exact_uplinkUp : ∃ R, afterUplinkUp = some R ∧
    R.knis.carrier () = some ethLinkUp ∧
    ∀ kni ∈ R.knis.list.entries, ∀ p, kni.ptr = some p → ShowsLink R kni p := by
  have hany : (afterUplinkUp.any fun R => decide (R.knis.carrier () = some ethLinkUp)) = true := by
    decide
  obtain ⟨R, hR, hup⟩ := (Option.any_eq_true _ _).mp hany
  exact ⟨R, hR, of_decide_eq_true hup, carrier_exact hR⟩

/-! ### The addresses -/

/-- The monitor finds that the state of a link has changed. -/
def SeesChange (R : LinkSys Kni) : LinkSysEvent Kni → Prop
  | .monitor up i _ => linkChanges up R.table i = true
  | _ => False

/-- The child processes there are for the commands of a step. -/
def LinkSysEvent.child : LinkSysEvent Kni → Nat → Child
  | .monitor _ _ children => children
  | _ => fun _ => .forkFailed

section commands

variable {E : RteEthdev} {R R' : LinkSys Kni}

/-- What a step does about the addresses.  Only a change of a link runs commands, and only
the first one. -/
structure CommandsStep (R : LinkSys Kni) (e : LinkSysEvent Kni) (R' : LinkSys Kni) : Prop where
  quiet : ¬SeesChange R e →
    R'.knis.firstCall = R.knis.firstCall ∧ R'.knis.commands = R.knis.commands
  configured : SeesChange R e → R'.knis.firstCall = false
  later : R.knis.firstCall = false → R'.knis.commands = R.knis.commands
  first : SeesChange R e → R.knis.firstCall = true →
    R'.knis.commands = R.knis.commands ++ ranCommands e.child R.knis.list.entries ∧
      ForksLogged e.child R.knis.list.entries

/-- Nothing happens to the addresses. -/
theorem CommandsStep.of_quiet {e : LinkSysEvent Kni} (hno : ¬SeesChange R e)
    (hfirst : R'.knis.firstCall = R.knis.firstCall)
    (hcommands : R'.knis.commands = R.knis.commands) : CommandsStep R e R' where
  quiet _ := ⟨hfirst, hcommands⟩
  configured hsees := absurd hsees hno
  later _ := hcommands
  first hsees := absurd hsees hno

variable [DecidableEq Kni]

theorem linkSysStep_commands (hplaces : Places R.table) {e : LinkSysEvent Kni}
    (hstep : linkSysStep E R e = some R') : CommandsStep R e R' := by
  cases linkSysStep_outcome hstep with
  | linkOpened | linkClosed | kniClosed | config => exact .of_quiet id rfl rfl
  | @kniOpened env args =>
      exact .of_quiet id (R.openKni_firstCall env args) (R.openKni_commands env args)
  | @monitor up i children S hi hturn =>
      obtain ⟨info, hget, -⟩ := hplaces i hi
      rcases linkMonitorTurn_cases hget hturn with
        ⟨hsame, rfl⟩ | ⟨currState, list, knis, hchanges, -, hknis, rfl⟩
      · refine .of_quiet (fun hsees => ?_) rfl rfl
        exact Bool.false_ne_true (hsame.symm.trans hsees)
      · exact ⟨fun hno => absurd hchanges hno, fun _ => hknis.firstCall, hknis.kept,
          fun _ => hknis.first⟩

/-- The addresses were configured. -/
theorem commands_kept {es : List (LinkSysEvent Kni)} (h : CarrierInv R)
    (hfirst : R.knis.firstCall = false) (hrun : exec (linkSysStep E) R es = some R') :
    R'.knis.commands = R.knis.commands := by
  let Inv (S : LinkSys Kni) : Prop :=
    CarrierInv S ∧ S.knis.firstCall = false ∧ S.knis.commands = R.knis.commands
  have hinv : Inv R' := by
    refine exec_invariant (fun S e S' hS hstep => ?_) (⟨h, hfirst, rfl⟩ : Inv R) hrun
    obtain ⟨hinv, hfirst', hcommands⟩ := hS
    have hout := linkSysStep_commands hinv.places hstep
    refine ⟨hinv.step hstep, ?_, (hout.later hfirst').trans hcommands⟩
    by_cases hsees : SeesChange S e
    · exact hout.configured hsees
    · exact (hout.quiet hsees).1.trans hfirst'
  exact hinv.2.2

/-- While no link has changed nothing was configured. -/
theorem commands_before {es : List (LinkSysEvent Kni)} (h : CarrierInv R)
    (hfirst : R.knis.firstCall = true) (hcommands : R.knis.commands = [])
    (hnone : Along (linkSysStep E) (fun S e => ¬SeesChange S e) R es)
    (hrun : exec (linkSysStep E) R es = some R') :
    CarrierInv R' ∧ R'.knis.firstCall = true ∧ R'.knis.commands = [] := by
  let Inv (S : LinkSys Kni) : Prop :=
    CarrierInv S ∧ S.knis.firstCall = true ∧ S.knis.commands = []
  have hinv : Inv R' := by
    refine exec_invariant_along (fun S e S' hS hno hstep => ?_)
      (⟨h, hfirst, hcommands⟩ : Inv R) hnone hrun
    obtain ⟨hinv, hfirst', hcommands'⟩ := hS
    obtain ⟨hf, hc⟩ := (linkSysStep_commands hinv.places hstep).quiet hno
    exact ⟨hinv.step hstep, hf.trans hfirst', hc.trans hcommands'⟩
  exact hinv

/-- **When the addresses are configured.**  In any run no `ip` command is run until a link
changes.  Then one is run for every interface whose child process can run it, in order, that
adds the address if the interface is up and removes it otherwise; where `fork()` fails the
mask has length 0.  And never again. -/
theorem ipCommands_once {es : List (LinkSysEvent Kni)}
    (hrun : exec (linkSysStep E) (LinkSys.init Kni) es = some R) :
    (Along (linkSysStep E) (fun S e => ¬SeesChange S e) (LinkSys.init Kni) es ∧
      R.knis.commands = []) ∨
    ∃ pre e post S, es = pre ++ e :: post ∧
      exec (linkSysStep E) (LinkSys.init Kni) pre = some S ∧
      Along (linkSysStep E) (fun S e => ¬SeesChange S e) (LinkSys.init Kni) pre ∧
      SeesChange S e ∧ R.knis.commands = ranCommands e.child S.knis.list.entries ∧
      ForksLogged e.child S.knis.list.entries := by
  rcases along_or_first SeesChange hrun with hnone | ⟨pre, e, post, S, rfl, hpre, hnone, hsees⟩
  · exact Or.inl ⟨hnone, (commands_before CarrierInv.init rfl rfl hnone hrun).2.2⟩
  · obtain ⟨hinv, hfirst, hcommands⟩ := commands_before CarrierInv.init rfl rfl hnone hpre
    rw [exec_append, hpre, Option.bind_some] at hrun
    obtain ⟨S', hstep, hpost⟩ := Option.bind_eq_some_iff.mp hrun
    have hout := linkSysStep_commands hinv.places hstep
    obtain ⟨hran, hlogged⟩ := hout.first hsees hfirst
    refine Or.inr ⟨pre, e, post, S, rfl, hpre, hnone, hsees, ?_, hlogged⟩
    rw [commands_kept (hinv.step hstep) (hout.configured hsees) hpost, hran, hcommands,
      List.nil_append]

end commands

theorem ipCommands_once_uplinkUp : ∃ R, afterUplinkUp = some R ∧ R.knis.commands.length = 1 ∧
    ((Along (linkSysStep uplinkDev) (fun S e => ¬SeesChange S e) (LinkSys.init Unit) uplinkUp ∧
        R.knis.commands = []) ∨
      ∃ pre e post S, uplinkUp = pre ++ e :: post ∧
        exec (linkSysStep uplinkDev) (LinkSys.init Unit) pre = some S ∧
        Along (linkSysStep uplinkDev) (fun S e => ¬SeesChange S e) (LinkSys.init Unit) pre ∧
        SeesChange S e ∧ R.knis.commands = ranCommands e.child S.knis.list.entries ∧
        ForksLogged e.child S.knis.list.entries) := by
  have hany : (afterUplinkUp.any fun R => decide (R.knis.commands.length = 1)) = true := by decide
  obtain ⟨R, hR, hlength⟩ := (Option.any_eq_true _ _).mp hany
  exact ⟨R, hR, of_decide_eq_true hlength, ipCommands_once hR⟩

end Pfm
