import Pfm.LinkState

/-!
# The devices of the links

What the calls of `pfm_link.c` leave of the devices, in the runs of `LinkState`.  A device
is stopped and started by `link_state_change`, started by `link_start`, and the link of
a device is set down by `link_stop`.

`pfm_link_close` leaves the link in the list, so `pfm_link_open` of its name finds it open
and does nothing.

* `device_running` : a link with an interface that is up has its device running;
* `link_down_iff` : a link that was set down stays down until one of its interfaces is
  configured up and the device starts.
-/

namespace Pfm

open BoundedLoop StepSystem

variable {Kni : Type}

/-! ### The devices -/

section devices

variable {V : Devices} {E : RteEthdev}

/-- The port of an id. -/
theorem toNat_ofInt {l : Int} (hl : IsPort l) : (UInt16.ofInt l).toNat = l.toNat := by
  obtain ⟨h0, hlt⟩ := hl
  have hmod : l % 2 ^ 16 = l := Int.emod_eq_of_lt h0 hlt
  rw [UInt16.ofInt, hmod]
  exact UInt16.toNat_ofNat_of_lt' (by change l.toNat < 65536; omega)

/-- Ids of ports are told apart. -/
theorem port_inj {l l' : Int} (hl : IsPort l) (hl' : IsPort l')
    (h : UInt16.ofInt l = UInt16.ofInt l') : l = l' := by
  have hnat : (UInt16.ofInt l).toNat = (UInt16.ofInt l').toNat := congrArg UInt16.toNat h
  rw [toNat_ofInt hl, toNat_ofInt hl'] at hnat
  obtain ⟨h0, -⟩ := hl
  obtain ⟨h0', -⟩ := hl'
  omega

/-- `link_stop` leaves the device running. -/
theorem Devices.started_setLinkDown (downs : Bool) (port p : UInt16) :
    (V.calls downs [⟨.txDoneCleanup, port⟩, ⟨.setLinkDown, port⟩]).started p = V.started p := by
  cases downs <;> rfl

/-- `link_stop` sets the link down, if that does not fail. -/
theorem Devices.down_setLinkDown (downs : Bool) (port p : UInt16) :
    (V.calls downs [⟨.txDoneCleanup, port⟩, ⟨.setLinkDown, port⟩]).down p = true ↔
      (downs = true ∧ p = port) ∨ V.down p = true := by
  cases downs with
  | false => exact (or_iff_right fun h => Bool.false_ne_true h.1).symm
  | true =>
      change Function.update V.down port true p = true ↔ _
      rw [Function.update_apply]
      split
      · rename_i heq
        exact iff_of_true rfl (Or.inl ⟨rfl, heq⟩)
      · rename_i hne
        exact (or_iff_right fun h => hne h.2).symm

/-- `link_start` stops nothing. -/
theorem Devices.started_ethCalls (cs : List EthCall) {p : UInt16} (h : V.started p = true) :
    (V.ethCalls cs).started p = true := by
  induction cs generalizing V with
  | nil => exact h
  | cons c cs ih =>
      refine ih (V := if c.fn = .start ∧ c.ret = 0 then V.call true ⟨.start, c.port⟩ else V) ?_
      split
      · simp only [Devices.call, if_true, Function.update_apply]
        split
        · rfl
        · exact h
      · exact h

/-- `link_start` for another port. -/
theorem Devices.down_ethCalls (cs : List EthCall) {p : UInt16} (hp : ∀ c ∈ cs, c.port ≠ p) :
    (V.ethCalls cs).down p = V.down p := by
  induction cs generalizing V with
  | nil => rfl
  | cons c cs ih =>
      refine (ih (fun c' hc' => hp c' (List.mem_cons_of_mem _ hc'))).trans ?_
      dsimp only
      split
      · exact Function.update_of_ne (hp c List.mem_cons_self).symm _ _
      · rfl

/-- `link_state_change` of another port. -/
theorem Devices.calls_other (starts : Bool) {linkId : Int} {st : OpsState} {p : UInt16}
    (hp : p ≠ UInt16.ofInt linkId) :
    (V.calls starts (linkStateChange E linkId st)).started p = V.started p ∧
      (V.calls starts (linkStateChange E linkId st)).down p = V.down p := by
  unfold linkStateChange
  dsimp only
  split
  · exact ⟨rfl, rfl⟩
  split
  · cases starts with
    | false => exact ⟨Function.update_of_ne hp _ _, rfl⟩
    | true =>
        refine ⟨?_, Function.update_of_ne hp _ _⟩
        change Function.update (Function.update V.started _ false) _ true p = _
        rw [Function.update_of_ne hp, Function.update_of_ne hp]
  · exact ⟨Function.update_of_ne hp _ _, rfl⟩

/-- A port that is asked to be enabled runs, if it starts. -/
theorem Devices.calls_enabled {linkId : Int} (hvalid : E.isValidPort (UInt16.ofInt linkId) = true) :
    (V.calls true (linkStateChange E linkId .enabled)).started (UInt16.ofInt linkId) = true := by
  rw [linkStateChange, if_neg (by rw [hvalid]; decide), if_pos rfl]
  exact Function.update_self _ _ _

/-- A port that is asked to be disabled stays down, and so does one that does not start. -/
theorem Devices.down_calls {starts : Bool} {linkId : Int} {st : OpsState} {p : UInt16}
    (hst : st = .enabled → starts = false) :
    (V.calls starts (linkStateChange E linkId st)).down p = V.down p := by
  unfold linkStateChange
  dsimp only
  split
  · rfl
  split
  · rename_i henabled
    rw [hst henabled]
    rfl
  · rfl

end devices

section running

variable {E : RteEthdev} {R R' : LinkSys Kni}

/-- A link with an interface that is up has its device running, if there is one. -/
structure DeviceInv (E : RteEthdev) (R : LinkSys Kni) : Prop where
  running : ∀ linkId, R.knis.list.LinkUp linkId → E.isValidPort (UInt16.ofInt linkId) = true →
    R.devices.started (UInt16.ofInt linkId) = true
  fresh : ∀ j : Fin maxKniPorts, R.knis.list.kniCount ≤ j.val →
    (R.knis.list.kniInfoList j).opsState = .notConfigured

theorem DeviceInv.init : DeviceInv E (LinkSys.init Kni) where
  running linkId h := by
    obtain ⟨j, hj, -⟩ := h
    exact absurd hj (Nat.not_lt_zero _)
  fresh _ _ := rfl

/-- A restart succeeds. -/
def Restarts : LinkSysEvent Kni → Prop
  | .config _ _ starts => starts = true
  | _ => True

/-- Devices that go on, and an interface list in which no other one is up. -/
theorem DeviceInv.weaken (h : DeviceInv E R) {S : LinkSys Kni}
    (hstarted : ∀ p, R.devices.started p = true → S.devices.started p = true)
    (hcount : S.knis.list.kniCount = R.knis.list.kniCount)
    (hlink : ∀ j, (S.knis.list.kniInfoList j).linkId = (R.knis.list.kniInfoList j).linkId)
    (hops : ∀ j, (S.knis.list.kniInfoList j).opsState = (R.knis.list.kniInfoList j).opsState) :
    DeviceInv E S where
  running linkId hup hvalid := by
    obtain ⟨j, hj, hlinkId, hstate⟩ := hup
    rw [hlink] at hlinkId
    rw [hops] at hstate
    exact hstarted _ (h.running linkId ⟨j, hcount ▸ hj, hlinkId, hstate⟩ hvalid)
  fresh j hj := by
    rw [hops]
    exact h.fresh j (hcount ▸ hj)

/-- An interface is opened: it is not up. -/
theorem DeviceInv.kniOpened (h : DeviceInv E R) {S : LinkSys Kni} (env : KniOpenEnv Kni)
    (args : KniOpenArgs) (hlist : S.knis.list = (kniOpen env R.knis.list args).1)
    (hdev : S.devices = R.devices) : DeviceInv E S := by
  rcases kniOpen_cases env R.knis.list args with heq | ⟨hcount, hentry⟩
  · rw [heq] at hlist
    exact h.weaken (fun _ hp => hdev ▸ hp) (by rw [hlist]) (fun _ => by rw [hlist])
      fun _ => by rw [hlist]
  rw [← hlist] at hcount hentry
  have hstate (j : Fin maxKniPorts) :
      (S.knis.list.kniInfoList j).opsState = (R.knis.list.kniInfoList j).opsState := by
    by_cases hj : j.val = R.knis.list.kniCount
    · exact ((hentry j).2 hj).2
    · rw [(hentry j).1 hj]
  constructor
  · intro linkId hup hvalid
    obtain ⟨j, hj, hlink, hup⟩ := hup
    have hj : j.val < R.knis.list.kniCount + 1 := Nat.lt_of_lt_of_eq hj hcount
    rcases Nat.lt_succ_iff_lt_or_eq.mp hj with hlt | hlast
    · rw [(hentry j).1 (Nat.ne_of_lt hlt)] at hlink hup
      rw [hdev]
      exact h.running linkId ⟨j, hlt, hlink, hup⟩ hvalid
    · rw [hstate, h.fresh j (Nat.le_of_eq hlast.symm)] at hup
      cases hup
  · intro j hj
    have hj : R.knis.list.kniCount + 1 ≤ j.val := hcount ▸ hj
    rw [hstate]
    exact h.fresh j (Nat.le_of_succ_le hj)

/-- The kernel configures an interface. -/
theorem DeviceInv.config (h : DeviceInv E R)
    (hport : ∀ j : Fin maxKniPorts, j.val < R.knis.list.kniCount →
      IsPort (R.knis.list.kniInfoList j).linkId) (kniId : UInt16) (kniState : UInt8)
    {S : LinkSys Kni}
    (hlist : S.knis.list = (callbackFuncKniIfConfig R.knis.list kniId kniState).1)
    (hdev : S.devices = LinkSys.changeLinks E R.devices true
      (callbackFuncKniIfConfig R.knis.list kniId kniState).2) : DeviceInv E S := by
  by_cases hid : kniId.toNat < R.knis.list.kniCount
  swap
  · rw [callbackFuncKniIfConfig_invalid kniState (Nat.not_lt.mp hid)] at hlist hdev
    exact h.weaken (fun _ hp => hdev ▸ hp) (by rw [hlist]) (fun _ => by rw [hlist])
      fun _ => by rw [hlist]
  let i : Fin maxKniPorts := ⟨kniId.toNat, Nat.lt_of_lt_of_le hid R.knis.list.kniCount_le⟩
  have hi : i.val < R.knis.list.kniCount := hid
  by_cases hptr : (R.knis.list.kniInfoList i).ptr.isSome
  swap
  · rw [callbackFuncKniIfConfig_closed i rfl hi hptr] at hlist hdev
    exact h.weaken (fun _ hp => hdev ▸ hp) (by rw [hlist]) (fun _ => by rw [hlist])
      fun _ => by rw [hlist]
  -- the entries that are not open
  have hfresh {st : OpsState} (hset : S.knis.list = R.knis.list.setOps i st)
      (j : Fin maxKniPorts) (hj : S.knis.list.kniCount ≤ j.val) :
      (S.knis.list.kniInfoList j).opsState = .notConfigured := by
    rw [hset] at hj ⊢
    have hji : j ≠ i := by
      intro heq
      subst heq
      exact absurd hi (Nat.not_lt.mpr hj)
    rw [KniList.setOps_of_ne hji]
    exact h.fresh j hj
  by_cases hup : kniState = ethLinkUp
  · subst hup
    rw [callbackFuncKniIfConfig_up i rfl hi hptr] at hlist hdev
    refine ⟨fun linkId hlink hvalid => ?_, hfresh hlist⟩
    rw [hdev]
    by_cases hsame : linkId = (R.knis.list.kniInfoList i).linkId
    · subst hsame
      exact Devices.calls_enabled hvalid
    rw [hlist] at hlink
    rcases (KniList.any_setOps hi _).mp hlink with hself | ⟨j, -, hj, hkni⟩
    · exact absurd hself.1.symm hsame
    have hne : UInt16.ofInt linkId ≠ UInt16.ofInt (R.knis.list.kniInfoList i).linkId := by
      intro heq
      have hl : IsPort linkId := hkni.1 ▸ hport j hj
      exact hsame (port_inj hl (hport i hi) heq)
    exact (Devices.calls_other true hne).1.trans (h.running linkId ⟨j, hj, hkni⟩ hvalid)
  · rw [callbackFuncKniIfConfig_down i hup rfl hi hptr] at hlist hdev
    refine ⟨fun linkId hlink hvalid => ?_, hfresh hlist⟩
    rw [hlist] at hlink
    obtain ⟨j, hji, hj, hlinkId, hstate⟩ := (linkUp_setOps_disabled hi linkId).mp hlink
    have hrunning := h.running linkId ⟨j, hj, hlinkId, hstate⟩ hvalid
    rw [hdev]
    split
    · exact hrunning
    rename_i hscan
    -- the link that is disabled is another one
    have hne : UInt16.ofInt linkId ≠ UInt16.ofInt (R.knis.list.kniInfoList i).linkId := by
      intro heq
      have hl : IsPort linkId := hlinkId ▸ hport j hj
      have hsame := port_inj hl (hport i hi) heq
      exact hscan ⟨j, hji, hj, hlinkId.trans hsame, by rw [hstate]; decide⟩
    exact (Devices.calls_other true hne).1.trans hrunning

variable [DecidableEq Kni]

theorem DeviceInv.step (h : DeviceInv E R) (hcarrier : CarrierInv R) {e : LinkSysEvent Kni}
    (hrestarts : Restarts e) (hstep : linkSysStep E R e = some R') : DeviceInv E R' := by
  cases linkSysStep_outcome hstep with
  | linkOpened =>
      exact h.weaken (fun _ hp => Devices.started_ethCalls _ hp) rfl (fun _ => rfl) fun _ => rfl
  | linkClosed hclose =>
      refine h.weaken (fun p hp => ?_) rfl (fun _ => rfl) fun _ => rfl
      rcases pfmLinkClose_cases hcarrier.places hclose with ⟨-, rfl⟩ | ⟨i, -, rfl⟩
      · exact hp
      · exact (Devices.started_setLinkDown _ _ p).trans hp
  | @kniOpened env args =>
      exact h.kniOpened env args (R.openKni_list env args) (R.openKni_devices env args)
  | kniClosed hclose =>
      obtain ⟨hcount, hentry⟩ := kniClose_entries hclose
      exact h.weaken (fun _ hp => hp) hcount (fun j => (hentry j).1) fun j => (hentry j).2.1
  | config kniId kniState starts =>
      obtain rfl : starts = true := hrestarts
      exact h.config hcarrier.port kniId kniState rfl rfl
  | monitor hi hturn =>
      have hlist := (linkMonitorTurn_list hturn).1
      exact h.weaken (fun _ hp => hp) (by rw [hlist]) (fun _ => by rw [hlist])
        fun _ => by rw [hlist]

/-- **Which devices run.**  In any run in which the devices restart when they are told to,
the device of every link that has an interface configured up is running. -/
theorem device_running {es : List (LinkSysEvent Kni)} (hrestarts : ∀ e ∈ es, Restarts e)
    (hrun : exec (linkSysStep E) (LinkSys.init Kni) es = some R) {linkId : Int}
    (hup : R.knis.list.LinkUp linkId) (hvalid : E.isValidPort (UInt16.ofInt linkId) = true) :
    R.devices.started (UInt16.ofInt linkId) = true := by
  let Inv (S : LinkSys Kni) : Prop := CarrierInv S ∧ DeviceInv E S
  have hinv : Inv R := by
    refine exec_invariant_inputs (fun S e S' hS he hstep => ?_)
      (⟨CarrierInv.init, DeviceInv.init⟩ : Inv (LinkSys.init Kni)) hrestarts hrun
    exact ⟨hS.1.step hstep, hS.2.step hS.1 he hstep⟩
  exact hinv.2.running linkId hup hvalid

end running

/-- The link goes up and its interface is configured up, then the link is closed and opened
again, under the name that the list has of it. -/
def uplinkClosed : List (LinkSysEvent Unit) :=
  uplinkUp ++ [.config 0 ethLinkUp true, .linkClosed (uplinkName.trunc maxLinkNameLen) true,
    .linkOpened ⟨fun _ => 0, uplinkName.trunc maxLinkNameLen⟩]

/-- The links and interfaces behind it. -/
def afterUplinkClosed : Option (LinkSys Unit) :=
  exec (linkSysStep uplinkDev) (LinkSys.init Unit) uplinkClosed

theorem uplinkClosed_restarts : ∀ e ∈ uplinkClosed, Restarts e := by
  intro e he
  simp only [uplinkClosed, uplinkUp, List.cons_append, List.nil_append, List.mem_cons,
    List.not_mem_nil, or_false] at he
  rcases he with rfl | rfl | rfl | rfl | rfl | rfl
  all_goals trivial

theorem device_running_uplinkClosed : ∃ R, afterUplinkClosed = some R ∧
    R.knis.list.LinkUp 0 ∧ R.devices.started (UInt16.ofInt 0) = true := by
  have hany : (afterUplinkClosed.any fun R => decide (R.knis.list.LinkUp 0)) = true := by decide
  obtain ⟨R, hR, hup⟩ := (Option.any_eq_true _ _).mp hany
  have hup : R.knis.list.LinkUp 0 := of_decide_eq_true hup
  exact ⟨R, hR, hup, device_running uplinkClosed_restarts hR hup (by decide)⟩

/-! ### Links that were closed -/

/-- The link of the port is closed, and is set down. -/
def ClosesLink (port : UInt16) (R : LinkSys Kni) : LinkSysEvent Kni → Prop
  | .linkClosed linkName downs => downs = true ∧ R.table.find linkName = some (some port.toNat)
  | _ => False

/-- An interface of the link is configured up, and the device starts. -/
def RestartsLink (E : RteEthdev) (port : UInt16) (R : LinkSys Kni) : LinkSysEvent Kni → Prop
  | .config kniId kniState starts =>
      starts = true ∧ kniState = ethLinkUp ∧ E.isValidPort port = true ∧
        ∃ i : Fin maxKniPorts, i.val = kniId.toNat ∧ i.val < R.knis.list.kniCount ∧
          (R.knis.list.kniInfoList i).ptr.isSome ∧
          UInt16.ofInt (R.knis.list.kniInfoList i).linkId = port
  | _ => False

section closed

variable {E : RteEthdev} {R R' : LinkSys Kni}

theorem bringUp_port (rets : EthRets) (port : UInt16) :
    ∀ call ∈ (bringUp rets port).2, call.port = port := by
  unfold bringUp
  dsimp only
  repeat' split
  all_goals simp

theorem readDevice_port (E : RteEthdev) (rets : EthRets) (port : UInt16) (info : LinkInfo) :
    ∀ call ∈ (readDevice E rets port info).2, call.port = port := by
  unfold readDevice
  dsimp only
  split <;> simp

/-- `pfm_link_open` has to do with the port of the next place only. -/
theorem pfmLinkOpen_port {rets : EthRets} {T T' : LinkTable} {linkName : CStr} {ret : Int}
    {calls : List EthCall} (h : pfmLinkOpen E rets T linkName = some (ret, T', calls)) :
    ∀ call ∈ calls, call.port = UInt16.ofNat T.linkCount := by
  obtain ⟨found, -, h⟩ := Option.bind_eq_some_iff.mp h
  cases found with
  | some i =>
      obtain ⟨info, -, hret⟩ := Option.map_eq_some_iff.mp h
      cases hret
      exact nofun
  | none =>
  dsimp only at h
  split at h
  · cases h
    exact nofun
  split at h
  · cases h
    exact nofun
  obtain ⟨info, -, h⟩ := Option.bind_eq_some_iff.mp h
  obtain ⟨list, -, h⟩ := Option.bind_eq_some_iff.mp h
  obtain ⟨started, hstart, h⟩ := Option.bind_eq_some_iff.mp h
  have hcalls : calls = started.2.2 := by
    split at h
    · cases h
      rfl
    · cases h
      rfl
  subst hcalls
  obtain ⟨found, -, hstart⟩ := Option.bind_eq_some_iff.mp hstart
  cases found with
  | none =>
      cases hstart
      exact nofun
  | some idx =>
  dsimp only at hstart
  split at hstart
  · cases hstart
    exact nofun
  obtain ⟨info', -, hstart⟩ := Option.bind_eq_some_iff.mp hstart
  obtain ⟨list', -, hstart⟩ := Option.bind_eq_some_iff.mp hstart
  cases hstart
  intro call hcall
  rcases List.mem_append.mp hcall with hread | hup
  · exact readDevice_port _ _ _ _ call hread
  · exact bringUp_port _ _ call hup

/-- `link_start` sets no link down. -/
theorem Devices.down_of_ethCalls {V : Devices} (cs : List EthCall) {p : UInt16}
    (h : (V.ethCalls cs).down p = true) : V.down p = true := by
  induction cs generalizing V with
  | nil => exact h
  | cons c cs ih =>
      have hrest :=
        ih (V := if c.fn = .start ∧ c.ret = 0 then V.call true ⟨.start, c.port⟩ else V) h
      split at hrest
      · simp only [Devices.call, if_true, Function.update_apply] at hrest
        split at hrest
        · cases hrest
        · exact hrest
      · exact hrest

/-- A configured interface brings a link up, or leaves it. -/
theorem changeLinks_down (V : Devices) (L : KniList Kni) (kniId : UInt16) (kniState : UInt8)
    (starts : Bool) (port : UInt16) :
    (LinkSys.changeLinks E V starts (callbackFuncKniIfConfig L kniId kniState).2).down port = true ↔
      V.down port = true ∧ ¬(starts = true ∧ kniState = ethLinkUp ∧ E.isValidPort port = true ∧
        ∃ i : Fin maxKniPorts, i.val = kniId.toNat ∧ i.val < L.kniCount ∧
          (L.kniInfoList i).ptr.isSome ∧ UInt16.ofInt (L.kniInfoList i).linkId = port) := by
  by_cases hid : kniId.toNat < L.kniCount
  swap
  · rw [callbackFuncKniIfConfig_invalid kniState (Nat.not_lt.mp hid)]
    refine (and_iff_left ?_).symm
    intro h
    obtain ⟨-, -, -, i, hi, hlt, -⟩ := h
    exact hid (hi ▸ hlt)
  let i : Fin maxKniPorts := ⟨kniId.toNat, Nat.lt_of_lt_of_le hid L.kniCount_le⟩
  have hi : i.val < L.kniCount := hid
  have honly (j : Fin maxKniPorts) (hj : j.val = kniId.toNat) : j = i := Fin.ext hj
  by_cases hptr : (L.kniInfoList i).ptr.isSome
  swap
  · rw [callbackFuncKniIfConfig_closed i rfl hi hptr]
    refine (and_iff_left ?_).symm
    intro h
    obtain ⟨-, -, -, j, hj, -, hsome, -⟩ := h
    obtain rfl := honly j hj
    exact hptr hsome
  by_cases hup : kniState = ethLinkUp
  swap
  · rw [callbackFuncKniIfConfig_down i hup rfl hi hptr, and_iff_left (fun h => hup h.2.1)]
    dsimp only
    split
    · rfl
    · exact Bool.eq_iff_iff.mp (Devices.down_calls nofun)
  subst hup
  rw [callbackFuncKniIfConfig_up i rfl hi hptr]
  change (V.calls starts (linkStateChange E (L.kniInfoList i).linkId .enabled)).down port = true ↔ _
  by_cases hport : port = UInt16.ofInt (L.kniInfoList i).linkId
  swap
  · rw [(Devices.calls_other starts hport).2]
    refine (and_iff_left ?_).symm
    intro h
    obtain ⟨-, -, -, j, hj, -, -, hlink⟩ := h
    obtain rfl := honly j hj
    exact hport hlink.symm
  by_cases hstarts : starts = true
  swap
  · rw [Devices.down_calls fun _ => Bool.eq_false_of_not_eq_true hstarts]
    exact (and_iff_left fun h => hstarts h.1).symm
  by_cases hvalid : E.isValidPort port = true
  · refine iff_of_false ?_ fun h => h.2 ⟨hstarts, rfl, hvalid, i, rfl, hi, hptr, hport.symm⟩
    rw [linkStateChange, ← hport, if_neg (by rw [hvalid]; decide), if_pos rfl, hstarts]
    change ¬Function.update V.down port false port = true
    rw [Function.update_self]
    exact Bool.false_ne_true
  · rw [linkStateChange, ← hport, if_pos (Bool.eq_false_of_not_eq_true hvalid)]
    exact (and_iff_left fun h => hvalid h.2.2.1).symm

/-- Only open links are set down. -/
structure DownInv (R : LinkSys Kni) : Prop where
  carrier : CarrierInv R
  listed : ∀ port : UInt16, R.devices.down port = true → port.toNat < R.table.linkCount

theorem DownInv.init : DownInv (LinkSys.init Kni) where
  carrier := CarrierInv.init
  listed _ h := absurd h Bool.false_ne_true

variable [DecidableEq Kni]

/-- **One step.**  The link of a port is down when it is set down, and stays down until it
is restarted. -/
theorem DownInv.down_iff (h : DownInv R) {e : LinkSysEvent Kni}
    (hstep : linkSysStep E R e = some R') (port : UInt16) : R'.devices.down port = true ↔
      ClosesLink port R e ∨ (R.devices.down port = true ∧ ¬RestartsLink E port R e) := by
  have hsame (hdev : R'.devices.down port = R.devices.down port) (hclose : ¬ClosesLink port R e)
      (hrestart : ¬RestartsLink E port R e) : R'.devices.down port = true ↔
        ClosesLink port R e ∨ (R.devices.down port = true ∧ ¬RestartsLink E port R e) := by
    rw [hdev, or_iff_right hclose, and_iff_left hrestart]
  cases linkSysStep_outcome hstep with
  | linkOpened hopen =>
      have hport := pfmLinkOpen_port (E := E) hopen
      refine hsame (Bool.eq_iff_iff.mpr ⟨Devices.down_of_ethCalls _, fun hdown => ?_⟩) id id
      -- the next place is that of no link yet
      refine (Devices.down_ethCalls _ fun call hcall heq => ?_).trans hdown
      have hlt := h.listed port hdown
      rw [← heq, hport call hcall, UInt16.toNat_ofNat_of_lt'] at hlt
      · exact Nat.lt_irrefl _ hlt
      · exact Nat.lt_of_le_of_lt h.carrier.places.count_le (by decide)
  | @linkClosed linkName downs calls hclose =>
      rcases pfmLinkClose_cases h.carrier.places hclose with ⟨hfind, rfl⟩ | ⟨i, hfind, rfl⟩
      · refine hsame rfl ?_ id
        intro hclosed
        cases hfind.symm.trans hclosed.2
      have hcount : i < maxLinkCount :=
        Nat.lt_of_lt_of_le (firstIndex_lt hfind) h.carrier.places.count_le
      have hlt : i < 2 ^ 16 := Nat.lt_trans hcount (by decide)
      have hclosed : ClosesLink port R (.linkClosed linkName downs) ↔
          downs = true ∧ port = UInt16.ofNat i := by
        rw [ClosesLink, hfind, Option.some.injEq, Option.some.injEq]
        refine and_congr_right fun _ => ⟨fun heq => ?_, fun heq => ?_⟩
        · rw [heq, UInt16.ofNat_toNat]
        · rw [heq, UInt16.toNat_ofNat_of_lt' hlt]
      have hquiet : ¬RestartsLink E port R (.linkClosed linkName downs) := id
      rw [hclosed, and_iff_left hquiet]
      exact Devices.down_setLinkDown downs (UInt16.ofNat i) port
  | kniOpened =>
      refine hsame ?_ id id
      rw [LinkSys.openKni_devices]
  | kniClosed | monitor => exact hsame rfl id id
  | config kniId kniState starts =>
      have hopen : ¬ClosesLink port R (.config kniId kniState starts) := id
      rw [or_iff_right hopen]
      exact changeLinks_down R.devices R.knis.list kniId kniState starts port

/-- No link leaves the list. -/
theorem linkSysStep_count (hplaces : Places R.table) {e : LinkSysEvent Kni}
    (hstep : linkSysStep E R e = some R') : R.table.linkCount ≤ R'.table.linkCount := by
  cases linkSysStep_outcome hstep with
  | linkOpened hopen => exact (LinkOpenOutcome.of_run hplaces hopen).count_le
  | kniOpened => rw [LinkSys.openKni_table]
  | linkClosed | kniClosed | config => exact Nat.le_refl _
  | monitor hi hturn => exact Nat.le_of_eq (linkMonitorTurn_list hturn).2.symm

theorem DownInv.step (h : DownInv R) {e : LinkSysEvent Kni} (hstep : linkSysStep E R e = some R') :
    DownInv R' := by
  refine ⟨h.carrier.step hstep, fun port hdown => ?_⟩
  refine Nat.lt_of_lt_of_le ?_ (linkSysStep_count h.carrier.places hstep)
  rcases (h.down_iff hstep port).mp hdown with hclosed | ⟨hdown, -⟩
  · cases e with
    | linkClosed linkName downs => exact firstIndex_lt hclosed.2
    | linkOpened | kniOpened | kniClosed | config | monitor => exact hclosed.elim
  · exact h.listed port hdown

/-- **Closed links stay down.**  At the end of any run the link of a port is left set down
exactly when it was closed and could be set down, and since then the device was not started
again for an interface of the link configured up; opening the link by its name changes
nothing. -/
theorem link_down_iff {es : List (LinkSysEvent Kni)}
    (hrun : exec (linkSysStep E) (LinkSys.init Kni) es = some R) (port : UInt16) :
    R.devices.down port = true ↔ ∃ pre e post S S', es = pre ++ e :: post ∧
      exec (linkSysStep E) (LinkSys.init Kni) pre = some S ∧ ClosesLink port S e ∧
      linkSysStep E S e = some S' ∧
      Along (linkSysStep E) (fun S e => ¬RestartsLink E port S e) S' post := by
  refine (latched_iff (P := fun S : LinkSys Kni => S.devices.down port = true)
    (fun _ _ _ hinv hstep => hinv.step hstep) (fun _ _ _ hinv hstep => hinv.down_iff hstep port)
    DownInv.init hrun).trans (or_iff_right ?_)
  intro hinit
  exact Bool.false_ne_true hinit.1

end closed

/-- Opened again, the link is down still. -/
theorem link_down_iff_uplinkClosed : ∃ R, afterUplinkClosed = some R ∧
    (R.devices.down 0 = true ↔ ∃ pre e post S S', uplinkClosed = pre ++ e :: post ∧
      exec (linkSysStep uplinkDev) (LinkSys.init Unit) pre = some S ∧ ClosesLink 0 S e ∧
      linkSysStep uplinkDev S e = some S' ∧
      Along (linkSysStep uplinkDev) (fun S e => ¬RestartsLink uplinkDev 0 S e) S' post) ∧
    R.devices.down 0 = true := by
  have hany : (afterUplinkClosed.any fun R => R.devices.down 0) = true := by decide
  obtain ⟨R, hR, hdown⟩ := (Option.any_eq_true _ _).mp hany
  exact ⟨R, hR, link_down_iff hR 0, hdown⟩

end Pfm
