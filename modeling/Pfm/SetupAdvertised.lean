import Pfm.BearerContextSpec
import Pfm.LookupAgreement
import Pfm.SetupWork

/-!
# What a bearer setup advertises

The response to a setup request gives, for every PDU session and every DRB set
up, the local address and tunnel id the peer is to use.

* `SetupAnswered` says how the response answers the request, item by item;
* `E1apBearerCtxSetupRsp.keys` are the tunnel keys it advertises;
* `setup_advertises` : after a successful setup every key advertised is committed
  for the item it answers, they all differ, and none was committed before.

The loops are followed with the rows the request holds (`Work`): those listed in
the context, and the row of the PDU session being set up.
-/

namespace Pfm

open BoundedLoop StepSystem TunnelTable

variable {D : Dpdk} {env : Env D} {T T' : TunnelTable D} {ctx ctx' : UeCtx}
  {held held' : TunnelIdx → Prop}

/-! ### The statement -/

/-- The tunnel key a DRB entry advertises. -/
def DrbSetupSuccRspInfo.key (s : DrbSetupSuccRspInfo) : TunnelKey :=
  ⟨s.drbUlIpAddr, s.drbUlTeid⟩

/-- The tunnel key a PDU-session entry advertises for the session itself. -/
def PdusSetupSuccRspInfo.key (s : PdusSetupSuccRspInfo) : TunnelKey :=
  ⟨s.pdusDlIpAddr, s.pdusDlTeid⟩

/-- The keys advertised for the DRBs of a PDU session. -/
def PdusSetupSuccRspInfo.drbKeys (s : PdusSetupSuccRspInfo) : List TunnelKey :=
  (s.drbSuccList.firstN s.drbSetupSuccCount).map DrbSetupSuccRspInfo.key

/-- The keys a PDU-session entry advertises. -/
def PdusSetupSuccRspInfo.keys (s : PdusSetupSuccRspInfo) : List TunnelKey :=
  s.key :: s.drbKeys

/-- The keys a response advertises. -/
def E1apBearerCtxSetupRsp.keys (rsp : E1apBearerCtxSetupRsp) : List TunnelKey :=
  (rsp.pdusSuccList.firstN rsp.pdusSetupSuccCount).flatMap PdusSetupSuccRspInfo.keys

/-- The response entries of the DRBs of a PDU session answer its items in order.
`At k ip te` says where the key `k` was set up towards `ip` and `te`. -/
def DrbsAnswered (At : TunnelKey → PfmIpAddr → UInt32 → Prop) (n : Nat)
    (item : PdusSetupReqInfo) (s : PdusSetupSuccRspInfo) : Prop :=
  OutcomeSplit (fun i s => At s.key i.drbDlIpAddr i.drbDlTeid)
    (fun i (f : DrbSetupFailRspInfo) => f.drbId = i.drbId)
    (item.drbList.firstN n) (s.drbSuccList.firstN s.drbSetupSuccCount)
    (s.drbFailList.firstN s.drbSetupFailCount)

/-- A success entry answers a PDU-session item. -/
structure PdusAnswered (At : TunnelKey → PfmIpAddr → UInt32 → Prop)
    (item : PdusSetupReqInfo) (s : PdusSetupSuccRspInfo) : Prop where
  pdusId : s.pdusId = item.pdusId
  tunnel : At s.key item.pdusUlIpAddr item.pdusUlTeid
  counts : s.drbSetupSuccCount + s.drbSetupFailCount = item.drbCount
  some_drb : 0 < s.drbSetupSuccCount
  drbs : DrbsAnswered At item.drbCount item s

/-- The entries of a response answer the first `n` items of the request in
order. -/
structure SetupAnswered (At : TunnelKey → PfmIpAddr → UInt32 → Prop) (n : Nat)
    (req : E1apBearerCtxSetupReq) (rsp : E1apBearerCtxSetupRsp) : Prop where
  counts : rsp.pdusSetupSuccCount + rsp.pdusSetupFailCount = n
  split : OutcomeSplit (PdusAnswered At)
    (fun item (f : PdusSetupFailRspInfo) => f.pdusId = item.pdusId)
    (req.pdusList.firstN n) (rsp.pdusSuccList.firstN rsp.pdusSetupSuccCount)
    (rsp.pdusFailList.firstN rsp.pdusSetupFailCount)

/-- The key `k` is committed to a row set up towards `ip` and `te`. -/
def CommittedFor (T : TunnelTable D) (k : TunnelKey) (ip : PfmIpAddr) (te : UInt32) : Prop :=
  ∃ r, T.rowOf k = some r ∧ (T.tunnelTable r).remoteIp = ip ∧
    (T.tunnelTable r).remoteTeId = te

/-- A row held has key `k` and is set up towards `ip` and `te`. -/
def HeldFor (T : TunnelTable D) (held : TunnelIdx → Prop) (k : TunnelKey) (ip : PfmIpAddr)
    (te : UInt32) : Prop :=
  ∃ r, held r ∧ T.keyAt r = k ∧ (T.tunnelTable r).remoteIp = ip ∧
    (T.tunnelTable r).remoteTeId = te

theorem HeldFor.mono {k : TunnelKey} {ip : PfmIpAddr} {te : UInt32}
    (h : HeldFor T held k ip te) (hsub : ∀ x, held x → held' x)
    (hkept : ∀ x, held x → T'.tunnelTable x = T.tunnelTable x) :
    HeldFor T' held' k ip te := by
  obtain ⟨r, hr, hk, hip, hte⟩ := h
  have hrow := hkept r hr
  exact ⟨r, hsub r hr, by rw [keyAt, hrow]; exact hk, by rw [hrow, hip], by rw [hrow, hte]⟩

theorem PdusAnswered.imp {At At' : TunnelKey → PfmIpAddr → UInt32 → Prop}
    {item : PdusSetupReqInfo} {s : PdusSetupSuccRspInfo} (h : PdusAnswered At item s)
    (hAt : ∀ k ip te, At k ip te → At' k ip te) : PdusAnswered At' item s :=
  ⟨h.pdusId, hAt _ _ _ h.tunnel, h.counts, h.some_drb, h.drbs.imp fun _ _ => hAt _ _ _⟩

theorem SetupAnswered.imp {At At' : TunnelKey → PfmIpAddr → UInt32 → Prop} {n : Nat}
    {req : E1apBearerCtxSetupReq} {rsp : E1apBearerCtxSetupRsp}
    (h : SetupAnswered At n req rsp) (hAt : ∀ k ip te, At k ip te → At' k ip te) :
    SetupAnswered At' n req rsp :=
  ⟨h.counts, h.split.imp fun _ _ hS => hS.imp hAt⟩

/-! ### The rows a context lists -/

theorem UeCtx.lists_addDrb {list : CArray maxDrbPerUe (Option TunnelIdx)} {r x : TunnelIdx}
    (hset : ctx.drbTunnelList.set? ctx.drbCount (some r) = some list) :
    (ctx.addDrb list).Lists x ↔ ctx.Lists x ∨ x = r := by
  simp only [Lists, addDrb, CArray.deref?_append hset, or_assoc]

theorem UeCtx.lists_addPdus {list : CArray maxPdusPerUe (Option TunnelIdx)} {r x : TunnelIdx}
    (hset : ctx.pdusTunnelList.set? ctx.pdusCount (some r) = some list) :
    (ctx.addPdus list).Lists x ↔ ctx.Lists x ∨ x = r := by
  simp only [Lists, addPdus, CArray.deref?_append hset]
  constructor
  · intro hor
    rcases hor with (h | h) | h
    · exact Or.inl (Or.inl h)
    · exact Or.inr h
    · exact Or.inl (Or.inr h)
  · intro hor
    rcases hor with (h | h) | h
    · exact Or.inl (Or.inl h)
    · exact Or.inr h
    · exact Or.inl (Or.inr h)

theorem UeCtx.Full.addDrb (h : ctx.Full) {list : CArray maxDrbPerUe (Option TunnelIdx)}
    {r : TunnelIdx} (hset : ctx.drbTunnelList.set? ctx.drbCount (some r) = some list) :
    (ctx.addDrb list).Full := by
  refine ⟨h.pdus, fun i hi => ?_⟩
  change ∃ x, list.deref? i = some x
  rw [CArray.deref?_set? hset]
  split
  · exact ⟨r, rfl⟩
  · exact h.drb i (by simp only [UeCtx.addDrb] at hi; omega)

theorem UeCtx.Full.addPdus (h : ctx.Full) {list : CArray maxPdusPerUe (Option TunnelIdx)}
    {r : TunnelIdx} (hset : ctx.pdusTunnelList.set? ctx.pdusCount (some r) = some list) :
    (ctx.addPdus list).Full := by
  refine ⟨fun i hi => ?_, h.drb⟩
  change ∃ x, list.deref? i = some x
  rw [CArray.deref?_set? hset]
  split
  · exact ⟨r, rfl⟩
  · exact h.pdus i (by simp only [UeCtx.addPdus] at hi; omega)

/-! ### One DRB -/

/-- `drb_setup` on rows held: it fails and holds what it held, or the response
advertises a new key, held in a new row for the item. -/
theorem Work.drbSetup (h : Work T held) {req : DrbSetupReqInfo} {out : DrbServed D}
    (hout : drbSetup env T ctx req = some out) :
    (out.ctx = ctx ∧ (∃ cause, out.rsp = .error ⟨req.drbId, cause⟩) ∧ Work out.tun held ∧
      out.tun.rowOf = T.rowOf ∧ ∀ x, held x → out.tun.tunnelTable x = T.tunnelTable x) ∨
    ∃ s r list, out.rsp = .ok s ∧ out.ctx = ctx.addDrb list ∧
      ctx.drbTunnelList.set? ctx.drbCount (some r) = some list ∧
      Opened T out.tun held s.key r ∧ (out.tun.tunnelTable r).remoteIp = req.drbDlIpAddr ∧
      (out.tun.tunnelTable r).remoteTeId = req.drbDlTeid ∧
      (out.tun.tunnelTable r).tunnelType = .drb := by
  rcases drbSetup_cases hout with ⟨hctx, hrsp, htun | ⟨hnone, htun⟩⟩ |
    ⟨key, r, T₁, list, hopen, hset, rfl⟩
  · rw [htun]
    exact Or.inl ⟨hctx, hrsp, h, rfl, fun _ _ => rfl⟩
  · have hopen : tunnelOpen env T req.drbDlIpAddr .drb = (none, out.tun) := by
      rw [htun, ← hnone]
    exact Or.inl ⟨hctx, hrsp, h.not_opened hopen⟩
  · have hO := h.opened hopen
    have hrow : ((T₁.tunnelTable r).fillDrb req).key = T₁.keyAt r := rfl
    have hkey : (drbSetupSuccRspCreate ((T₁.tunnelTable r).fillDrb req)).key = key := hO.keyAt
    refine Or.inr ⟨_, r, list, rfl, rfl, hset, ?_, ?_, ?_, ?_⟩
    · rw [hkey]
      exact hO.setRow hrow rfl
    all_goals
      simp only [setRow_self]
      rfl

/-! ### The DRBs of one PDU session -/

/-- The rows held while the DRBs of a PDU session are set up: those the context
lists, and the row `r` of the session. -/
def HeldWith (ctx : UeCtx) (r : TunnelIdx) (x : TunnelIdx) : Prop := ctx.Lists x ∨ x = r

/-- After `i` DRBs, started in `w₀`. -/
structure DrbLoop (req : PdusSetupReqInfo) (r : TunnelIdx)
    (w₀ : PdusWork D PdusSetupSuccRspInfo) (i : Nat)
    (w : PdusWork D PdusSetupSuccRspInfo) : Prop where
  work : Work w.tun (HeldWith w.ctx r)
  rows : w.tun.rowOf = w₀.tun.rowOf
  kept : ∀ x, HeldWith w₀.ctx r x → w.tun.tunnelTable x = w₀.tun.tunnelTable x
  lists : ∀ x, w₀.ctx.Lists x → w.ctx.Lists x
  full : w.ctx.Full
  head : w.succ.pdusId = w₀.succ.pdusId ∧ w.succ.key = w₀.succ.key
  counts : w.succ.drbSetupSuccCount + w.succ.drbSetupFailCount = i
  drbs : DrbsAnswered (HeldFor w.tun w.ctx.Lists) i req w.succ
  nodup : w.succ.drbKeys.Nodup
  fresh : ∀ k, k ∈ w.succ.drbKeys →
    w₀.tun.rowOf k = none ∧ ∀ x, HeldWith w₀.ctx r x → w₀.tun.keyAt x ≠ k

theorem DrbLoop.start {req : PdusSetupReqInfo} {r : TunnelIdx}
    {w : PdusWork D PdusSetupSuccRspInfo} (hwork : Work w.tun (HeldWith w.ctx r))
    (hfull : w.ctx.Full) (hs : w.succ.drbSetupSuccCount = 0)
    (hf : w.succ.drbSetupFailCount = 0) : DrbLoop req r w 0 w where
  work := hwork
  rows := rfl
  kept _ _ := rfl
  lists _ h := h
  full := hfull
  head := ⟨rfl, rfl⟩
  counts := by rw [hs, hf]
  drbs := by
    rw [DrbsAnswered, hs, hf]
    exact .nil
  nodup := by simp [PdusSetupSuccRspInfo.drbKeys, hs]
  fresh k hk := by simp [PdusSetupSuccRspInfo.drbKeys, hs] at hk

/-- A DRB key advertised is the key of a row the context lists. -/
theorem DrbLoop.held_of_mem {req : PdusSetupReqInfo} {r : TunnelIdx}
    {w₀ w : PdusWork D PdusSetupSuccRspInfo} {i : Nat} (h : DrbLoop req r w₀ i w)
    {k : TunnelKey} (hk : k ∈ w.succ.drbKeys) : ∃ x, w.ctx.Lists x ∧ w.tun.keyAt x = k := by
  obtain ⟨s, hs, rfl⟩ := List.mem_map.mp hk
  obtain ⟨item, _, x, hx, hkey, _⟩ := h.drbs.success_mem hs
  exact ⟨x, hx, hkey⟩

/-- A DRB that was refused: the rows held stay, and the failure list names it. -/
theorem DrbLoop.refused {req : PdusSetupReqInfo} {r : TunnelIdx}
    {w₀ w w' : PdusWork D PdusSetupSuccRspInfo} {i : Nat} {item : DrbSetupReqInfo}
    {fail : DrbSetupFailRspInfo} {list : CArray maxDrbPerPdus DrbSetupFailRspInfo}
    (h : DrbLoop req r w₀ i w) (hitem : req.drbList.get? i = some item)
    (hid : fail.drbId = item.drbId)
    (hlist : w.succ.drbFailList.set? w.succ.drbSetupFailCount fail = some list)
    (hctx : w'.ctx = w.ctx)
    (hsucc : w'.succ = { w.succ with
      drbFailList := list, drbSetupFailCount := w.succ.drbSetupFailCount + 1 })
    (hwork : Work w'.tun (HeldWith w.ctx r)) (hrows : w'.tun.rowOf = w.tun.rowOf)
    (hkept : ∀ x, HeldWith w.ctx r x → w'.tun.tunnelTable x = w.tun.tunnelTable x) :
    DrbLoop req r w₀ (i + 1) w' where
  work := by
    rw [hctx]
    exact hwork
  rows := hrows.trans h.rows
  kept x hx := (hkept x (hx.imp (h.lists x) id)).trans (h.kept x hx)
  lists x hx := by
    rw [hctx]
    exact h.lists x hx
  full := by
    rw [hctx]
    exact h.full
  head := by
    rw [hsucc]
    exact h.head
  counts := by
    have := h.counts
    rw [hsucc]
    change w.succ.drbSetupSuccCount + (w.succ.drbSetupFailCount + 1) = i + 1
    omega
  drbs := by
    rw [hsucc, hctx]
    change OutcomeSplit _ _ (req.drbList.firstN (i + 1))
      (w.succ.drbSuccList.firstN w.succ.drbSetupSuccCount)
      (list.firstN (w.succ.drbSetupFailCount + 1))
    rw [CArray.firstN_succ hitem, CArray.firstN_succ_set? hlist]
    refine OutcomeSplit.append_failure (OutcomeSplit.imp h.drbs fun a b hab => ?_) hid
    exact hab.mono (fun _ hx => hx) fun x hx => hkept x (Or.inl hx)
  nodup := by
    rw [hsucc]
    exact h.nodup
  fresh := by
    rw [hsucc]
    exact h.fresh

/-- A DRB that was set up in row `x`: the context lists `x` too, and the success
list names its key. -/
theorem DrbLoop.served {req : PdusSetupReqInfo} {r x : TunnelIdx}
    {w₀ w w' : PdusWork D PdusSetupSuccRspInfo} {i : Nat} {item : DrbSetupReqInfo}
    {s : DrbSetupSuccRspInfo} {list : CArray maxDrbPerPdus DrbSetupSuccRspInfo}
    (h : DrbLoop req r w₀ i w) (hitem : req.drbList.get? i = some item)
    (hlist : w.succ.drbSuccList.set? w.succ.drbSetupSuccCount s = some list)
    (hlists : ∀ y, w'.ctx.Lists y ↔ w.ctx.Lists y ∨ y = x) (hfull : w'.ctx.Full)
    (hsucc : w'.succ = { w.succ with
      drbSuccList := list, drbSetupSuccCount := w.succ.drbSetupSuccCount + 1 })
    (hO : Opened w.tun w'.tun (HeldWith w.ctx r) s.key x)
    (hip : (w'.tun.tunnelTable x).remoteIp = item.drbDlIpAddr)
    (hte : (w'.tun.tunnelTable x).remoteTeId = item.drbDlTeid) :
    DrbLoop req r w₀ (i + 1) w' := by
  have hbase : ∀ y, HeldWith w₀.ctx r y → HeldWith w.ctx r y :=
    fun y hy => hy.imp (h.lists y) id
  have hkeys : w'.succ.drbKeys = w.succ.drbKeys ++ [s.key] := by
    rw [hsucc]
    change (list.firstN (w.succ.drbSetupSuccCount + 1)).map _ = _
    rw [CArray.firstN_succ_set? hlist, List.map_append]
    rfl
  exact
    { work := hO.work.mono fun y hy => by
        rcases hy with hy | rfl
        · exact ((hlists y).mp hy).imp Or.inl id
        · exact Or.inl (Or.inr rfl)
      rows := hO.rows.trans h.rows
      kept := fun y hy => (hO.kept y (hbase y hy)).trans (h.kept y hy)
      lists := fun y hy => (hlists y).mpr (Or.inl (h.lists y hy))
      full := hfull
      head := by
        rw [hsucc]
        exact h.head
      counts := by
        have := h.counts
        rw [hsucc]
        change w.succ.drbSetupSuccCount + 1 + w.succ.drbSetupFailCount = i + 1
        omega
      drbs := by
        rw [hsucc]
        change OutcomeSplit _ _ (req.drbList.firstN (i + 1))
          (list.firstN (w.succ.drbSetupSuccCount + 1))
          (w.succ.drbFailList.firstN w.succ.drbSetupFailCount)
        rw [CArray.firstN_succ hitem, CArray.firstN_succ_set? hlist]
        refine OutcomeSplit.append_success (OutcomeSplit.imp h.drbs fun a b hab => ?_)
          ⟨x, (hlists x).mpr (Or.inr rfl), hO.keyAt, hip, hte⟩
        exact hab.mono (fun y hy => (hlists y).mpr (Or.inl hy)) fun y hy => hO.kept y (Or.inl hy)
      nodup := by
        rw [hkeys]
        refine List.nodup_append.mpr ⟨h.nodup, List.nodup_singleton _, ?_⟩
        intro k hk k' hk' heq
        obtain ⟨y, hy, hyk⟩ := h.held_of_mem hk
        rw [List.mem_singleton] at hk'
        exact (hO.fresh y (Or.inl hy)).2 (hyk.trans (heq.trans hk'))
      fresh := by
        intro k hk
        rw [hkeys, List.mem_append, List.mem_singleton] at hk
        rcases hk with hk | rfl
        · exact h.fresh k hk
        · refine ⟨h.rows ▸ hO.absent, fun y hy heq => ?_⟩
          refine (hO.fresh y (hbase y hy)).2 ?_
          rw [keyAt, h.kept y hy]
          exact heq }

/-- **One turn of the DRB loop.** -/
theorem DrbLoop.step {req : PdusSetupReqInfo} {r : TunnelIdx}
    {w₀ w w' : PdusWork D PdusSetupSuccRspInfo} {i : Nat} (h : DrbLoop req r w₀ i w)
    (hstep : pdusSetupDrb env req i w = some w') : DrbLoop req r w₀ (i + 1) w' := by
  obtain ⟨item, out, hitem, hout, htun, hctx, hrsp⟩ := pdusSetupDrb_cases hstep
  rcases h.work.drbSetup hout with ⟨hctx', ⟨cause, herr⟩, hwork, hrows, hkept⟩ |
    ⟨s, x, list, hok, hctx', hset, hO, hip, hte, _⟩
  · rw [← htun] at hwork hrows hkept
    rcases hrsp with ⟨fail, list, hfail, hlist, hsucc⟩ | ⟨s, _, hs, _⟩
    · have hid : fail.drbId = item.drbId := by
        rw [herr] at hfail
        cases hfail
        rfl
      exact h.refused hitem hid hlist (hctx.trans hctx') hsucc hwork hrows hkept
    · simp [herr] at hs
  · rw [← htun] at hO hip hte
    have hctx'' : w'.ctx = w.ctx.addDrb list := hctx.trans hctx'
    rcases hrsp with ⟨fail, _, hf, _⟩ | ⟨s', list', hs', hlist, hsucc⟩
    · simp [hok] at hf
    · obtain rfl : s = s' := by
        rw [hok] at hs'
        cases hs'
        rfl
      exact h.served hitem hlist (fun y => hctx'' ▸ UeCtx.lists_addDrb hset)
        (hctx'' ▸ h.full.addDrb hset) hsucc hO hip hte

theorem DrbLoop.run {req : PdusSetupReqInfo} {r : TunnelIdx}
    {w₀ w : PdusWork D PdusSetupSuccRspInfo} {n : Nat} (h₀ : DrbLoop req r w₀ 0 w₀)
    (hrun : forRange (pdusSetupDrb env req) n w₀ = some w) : DrbLoop req r w₀ n w :=
  forRange_invariant (fun i w => DrbLoop req r w₀ i w) h₀
    (fun _ _ _ _ h hstep => h.step hstep) hrun

/-! ### One PDU session -/

theorem byte_of_bits : ∀ n : Fin 256, n.val % 32 + 32 * (n.val.testBit 5).toNat +
    64 * (n.val.testBit 6).toNat + 128 * (n.val.testBit 7).toNat = n.val := by
  decide +kernel

/-- `pdus_id` reads back what was written. -/
theorem TunnelInfo.pdusId_setPdusId (i : TunnelInfo) (id : UInt8) :
    (i.setPdusId id).pdusId = id := by
  have h := byte_of_bits ⟨id.toNat, id.toNat_lt⟩
  simp only at h
  simp only [pdusId, setPdusId, BitVec.toNat_ofNat]
  rw [show (2 : Nat) ^ 5 = 32 from rfl, h]
  simp

/-- From a table and a context to later ones: the rows listed are held, and what
was listed or committed still is. -/
structure Grown (T : TunnelTable D) (ctx : UeCtx) (T' : TunnelTable D) (ctx' : UeCtx) :
    Prop where
  work : Work T' ctx'.Lists
  full : ctx'.Full
  lists : ∀ x, ctx.Lists x → ctx'.Lists x
  rows : ∀ k x, T.rowOf k = some x → T'.rowOf k = some x
  kept : ∀ x, ctx.Lists x → T'.tunnelTable x = T.tunnelTable x

theorem Grown.trans {T'' : TunnelTable D} {ctx'' : UeCtx} (h : Grown T ctx T' ctx')
    (h' : Grown T' ctx' T'' ctx'') : Grown T ctx T'' ctx'' where
  work := h'.work
  full := h'.full
  lists x hx := h'.lists x (h.lists x hx)
  rows k x hk := h'.rows k x (h.rows k x hk)
  kept x hx := (h'.kept x (h.lists x hx)).trans (h.kept x hx)

/-- The session of row `r` with its DRBs, when at least one of them was set up:
the context that lists `r` too answers the item. -/
theorem DrbLoop.session {req : PdusSetupReqInfo} {succ : PdusSetupSuccRspInfo}
    {key : TunnelKey} {r : TunnelIdx} {w : PdusWork D PdusSetupSuccRspInfo}
    {list : CArray maxPdusPerUe (Option TunnelIdx)} (hopen : Opened T T' ctx.Lists key r)
    (hloop : DrbLoop req r (pdusSetupStart T' ctx req succ r) req.drbCount w)
    (hsome : w.succ.drbSetupFailCount ≠ req.drbCount)
    (hset : w.ctx.pdusTunnelList.set? w.ctx.pdusCount (some r) = some list) :
    Grown T ctx w.tun (w.ctx.addPdus list) ∧
      PdusAnswered (HeldFor w.tun (w.ctx.addPdus list).Lists) req w.succ ∧
      w.succ.key = key := by
  have hO := hopen.setRow (t := (T'.tunnelTable r).fillPdus req) rfl rfl
  have hrow : w.tun.rowOf = T.rowOf := hloop.rows.trans hO.rows
  have hlists : ∀ x, (w.ctx.addPdus list).Lists x ↔ HeldWith w.ctx r x :=
    fun x => UeCtx.lists_addPdus hset
  have hkept : ∀ x, HeldWith ctx r x →
      w.tun.tunnelTable x = (pdusSetupStart T' ctx req succ r).tun.tunnelTable x :=
    hloop.kept
  have hself : w.tun.tunnelTable r = (T'.tunnelTable r).fillPdus req :=
    (hkept r (Or.inr rfl)).trans (setRow_self _)
  have hkey : w.succ.key = key := hloop.head.2.trans hopen.keyAt
  have hgrown : Grown T ctx w.tun (w.ctx.addPdus list) :=
    { work := hloop.work.mono fun x hx => (hlists x).mp hx
      full := hloop.full.addPdus hset
      lists := fun x hx => (hlists x).mpr (Or.inl (hloop.lists x hx))
      rows := fun k x hk => hrow ▸ hk
      kept := fun x hx => (hkept x (Or.inl hx)).trans (hO.kept x hx) }
  refine ⟨hgrown, ⟨?_, ?_, hloop.counts, ?_, ?_⟩, hkey⟩
  · exact hloop.head.1.trans (TunnelInfo.pdusId_setPdusId _ _)
  · refine ⟨r, (hlists r).mpr (Or.inr rfl), ?_, ?_, ?_⟩
    · rw [keyAt, hself, hkey]
      exact hopen.keyAt
    · rw [hself]
      rfl
    · rw [hself]
      rfl
  · have := hloop.counts
    omega
  · exact OutcomeSplit.imp hloop.drbs fun a b hab =>
      hab.mono (fun x hx => (hlists x).mpr (Or.inl hx)) fun _ _ => rfl

/-- The keys of the session and its DRBs differ and are new. -/
theorem DrbLoop.session_keys {req : PdusSetupReqInfo} {succ : PdusSetupSuccRspInfo}
    {key : TunnelKey} {r : TunnelIdx} {w : PdusWork D PdusSetupSuccRspInfo}
    (hopen : Opened T T' ctx.Lists key r)
    (hloop : DrbLoop req r (pdusSetupStart T' ctx req succ r) req.drbCount w)
    (hkey : w.succ.key = key) :
    w.succ.keys.Nodup ∧ ∀ k, k ∈ w.succ.keys →
      T.rowOf k = none ∧ ∀ x, ctx.Lists x → T.keyAt x ≠ k := by
  have hO := hopen.setRow (t := (T'.tunnelTable r).fillPdus req) rfl rfl
  constructor
  · refine List.nodup_cons.mpr ⟨fun hmem => ?_, hloop.nodup⟩
    refine (hloop.fresh _ hmem).2 r (Or.inr rfl) ?_
    rw [hkey]
    exact hO.keyAt
  · intro k hk
    rcases List.mem_cons.mp hk with rfl | hk
    · rw [hkey]
      exact ⟨hO.absent, fun x hx => (hO.fresh x hx).2⟩
    · obtain ⟨hnone, hne⟩ := hloop.fresh k hk
      refine ⟨by rw [← hO.rows]; exact hnone, fun x hx heq => ?_⟩
      refine hne x (Or.inl hx) ?_
      rw [← heq]
      exact congrArg Tunnel.key (hO.kept x hx)

/-- `pdus_setup` on the rows listed: it fails, or the response entry answers the
item with new keys. -/
theorem Work.pdusSetup (h : Work T ctx.Lists) (hfull : ctx.Full)
    (hacc : D.tunnelHash.Accepts) {req : PdusSetupReqInfo} {succ : PdusSetupSuccRspInfo}
    {out : PdusServed D PdusSetupSuccRspInfo}
    (hout : pdusSetup env T ctx req succ = some out) :
    Grown T ctx out.tun out.ctx ∧
      ((∃ cause, out.fail = some ⟨req.pdusId, cause⟩) ∨
       (out.fail = none ∧ PdusAnswered (HeldFor out.tun out.ctx.Lists) req out.succ ∧
        out.succ.keys.Nodup ∧ ∀ k, k ∈ out.succ.keys →
          T.rowOf k = none ∧ ∀ x, ctx.Lists x → T.keyAt x ≠ k)) := by
  cases pdusSetup_cases hout with
  | refused cause =>
      exact ⟨⟨h, hfull, fun _ hx => hx, fun _ _ hk => hk, fun _ _ => rfl⟩, Or.inl ⟨cause, rfl⟩⟩
  | noTunnel T' cause hopen =>
      obtain ⟨hwork, hrows, hkept⟩ := h.not_opened hopen
      exact ⟨⟨hwork, hfull, fun _ hx => hx, fun k x hk => hrows ▸ hk, hkept⟩,
        Or.inl ⟨cause, rfl⟩⟩
  | noDrb key r T' w cause hopen hdrbs hall =>
      have hO := (h.opened hopen).setRow (t := (T'.tunnelTable r).fillPdus req) rfl rfl
      have hloop := (DrbLoop.start (w := pdusSetupStart T' ctx req succ r) hO.work hfull
        rfl rfl).run hdrbs
      have hrow : w.tun.rowOf = T.rowOf := hloop.rows.trans hO.rows
      have habsent : w.tun.rowOf key = none := by rw [hrow, hO.absent]
      have hr : HeldWith w.ctx r r := Or.inr rfl
      simp only [tunnelRemove_of_absent habsent]
      have hc := hloop.work.toReady.commit hacc hr
      have hcur := tunnelCommit_cursors w.tun r
      refine ⟨⟨?_, hloop.full, hloop.lists, fun k x hk => ?_, fun x hx => ?_⟩,
        Or.inl ⟨cause, rfl⟩⟩
      · exact (hloop.work.committed hr hc hcur.1 hcur.2).mono fun x hx => Or.inl hx
      · exact (hloop.work.toReady.committed hr hc).2 k x (hrow ▸ hk)
      · rw [hc.rows, hloop.kept x (Or.inl hx)]
        exact hO.kept x hx
  | served key r T' w list hopen hdrbs hsome hset =>
      have hO := (h.opened hopen).setRow (t := (T'.tunnelTable r).fillPdus req) rfl rfl
      have hloop := (DrbLoop.start (w := pdusSetupStart T' ctx req succ r) hO.work hfull
        rfl rfl).run hdrbs
      obtain ⟨hgrown, hanswered, hkey⟩ := DrbLoop.session (h.opened hopen) hloop hsome hset
      exact ⟨hgrown, Or.inr ⟨rfl, hanswered, DrbLoop.session_keys (h.opened hopen) hloop hkey⟩⟩

/-! ### The service loop -/

/-- After `i` PDU sessions, started in `w₀`. -/
structure PdusLoop (req : E1apBearerCtxSetupReq) (w₀ : CtxWork D E1apBearerCtxSetupRsp)
    (i : Nat) (w : CtxWork D E1apBearerCtxSetupRsp) : Prop where
  grown : Grown w₀.tun w₀.ctx w.tun w.ctx
  answered : SetupAnswered (HeldFor w.tun w.ctx.Lists) i req w.rsp
  nodup : w.rsp.keys.Nodup
  fresh : ∀ k, k ∈ w.rsp.keys → w₀.tun.rowOf k = none
  held : ∀ k, k ∈ w.rsp.keys → ∃ x, w.ctx.Lists x ∧ w.tun.keyAt x = k

theorem UeCtx.lists_fill (c : UeCtx) (cucpUeId : UInt32) (x : TunnelIdx) :
    ¬ (c.fill cucpUeId).Lists x := by
  simp [Lists, fill]

theorem PdusLoop.start (h : KeysOwnUsedRows T) (U : UeCtxTable D) (n : UeIdx)
    (req : E1apBearerCtxSetupReq) (rsp : E1apBearerCtxSetupRsp) :
    PdusLoop req (setupStart T U n req rsp) 0 (setupStart T U n req rsp) := by
  have hnone : ∀ x, ¬ (setupStart T U n req rsp).ctx.Lists x := UeCtx.lists_fill _ _
  refine ⟨⟨(Work.of_keysOwnUsedRows h).mono hnone, ⟨?_, ?_⟩, fun _ hx => hx, fun _ _ hk => hk,
    fun _ _ => rfl⟩, ⟨rfl, .nil⟩, ?_, ?_, ?_⟩
  · intro i hi
    simp [setupStart, UeCtx.fill] at hi
  · intro i hi
    simp [setupStart, UeCtx.fill] at hi
  all_goals simp [E1apBearerCtxSetupRsp.keys, setupStart]

/-- The keys listed entries answer with are keys of rows held. -/
theorem PdusAnswered.held_of_mem {item : PdusSetupReqInfo} {s : PdusSetupSuccRspInfo}
    (h : PdusAnswered (HeldFor T held) item s) {k : TunnelKey} (hk : k ∈ s.keys) :
    ∃ x, held x ∧ T.keyAt x = k := by
  rcases List.mem_cons.mp hk with rfl | hk
  · obtain ⟨x, hx, hkey, _⟩ := h.tunnel
    exact ⟨x, hx, hkey⟩
  · obtain ⟨d, hd, rfl⟩ := List.mem_map.mp hk
    obtain ⟨i, _, x, hx, hkey, _⟩ := h.drbs.success_mem hd
    exact ⟨x, hx, hkey⟩

/-- The keys advertised so far are still those of rows the context lists. -/
theorem PdusLoop.held_grown {req : E1apBearerCtxSetupReq}
    {w₀ w w' : CtxWork D E1apBearerCtxSetupRsp} {i : Nat} (h : PdusLoop req w₀ i w)
    (hgrown : Grown w.tun w.ctx w'.tun w'.ctx) {k : TunnelKey} (hk : k ∈ w.rsp.keys) :
    ∃ x, w'.ctx.Lists x ∧ w'.tun.keyAt x = k := by
  obtain ⟨x, hx, hkey⟩ := h.held k hk
  exact ⟨x, hgrown.lists x hx, (congrArg Tunnel.key (hgrown.kept x hx)).trans hkey⟩

/-- A session that was refused: the failure list names it, and the success slot it
used is beyond the count. -/
theorem PdusLoop.refused {req : E1apBearerCtxSetupReq}
    {w₀ w w' : CtxWork D E1apBearerCtxSetupRsp} {i : Nat} {item : PdusSetupReqInfo}
    {succ : PdusSetupSuccRspInfo} {fail : PdusSetupFailRspInfo}
    {list : CArray maxPdusPerUe PdusSetupSuccRspInfo}
    {failList : CArray maxPdusPerUe PdusSetupFailRspInfo}
    (h : PdusLoop req w₀ i w) (hitem : req.pdusList.get? i = some item)
    (hid : fail.pdusId = item.pdusId)
    (hlist : w.rsp.pdusSuccList.set? w.rsp.pdusSetupSuccCount succ = some list)
    (hset : w.rsp.pdusFailList.set? w.rsp.pdusSetupFailCount fail = some failList)
    (hgrown : Grown w.tun w.ctx w'.tun w'.ctx)
    (hrsp : w'.rsp = { w.rsp with
      pdusSuccList := list
      pdusFailList := failList
      pdusSetupFailCount := w.rsp.pdusSetupFailCount + 1 }) :
    PdusLoop req w₀ (i + 1) w' := by
  have hkeys : w'.rsp.keys = w.rsp.keys := by
    rw [hrsp]
    change (list.firstN w.rsp.pdusSetupSuccCount).flatMap _ = _
    rw [CArray.firstN_set? hlist (Nat.le_refl _)]
    rfl
  have hbefore := h.answered.imp fun k ip te hk =>
    HeldFor.mono hk hgrown.lists hgrown.kept
  refine ⟨h.grown.trans hgrown, ⟨?_, ?_⟩, ?_, ?_, ?_⟩
  · have := h.answered.counts
    rw [hrsp]
    change w.rsp.pdusSetupSuccCount + (w.rsp.pdusSetupFailCount + 1) = i + 1
    omega
  · rw [hrsp]
    change OutcomeSplit _ _ (req.pdusList.firstN (i + 1))
      (list.firstN w.rsp.pdusSetupSuccCount)
      (failList.firstN (w.rsp.pdusSetupFailCount + 1))
    rw [CArray.firstN_succ hitem, CArray.firstN_set? hlist (Nat.le_refl _),
      CArray.firstN_succ_set? hset]
    exact hbefore.split.append_failure hid
  · rw [hkeys]
    exact h.nodup
  · rw [hkeys]
    exact h.fresh
  · intro k hk
    rw [hkeys] at hk
    exact h.held_grown hgrown hk

/-- A session that was set up: the success list answers it with new keys. -/
theorem PdusLoop.served {req : E1apBearerCtxSetupReq}
    {w₀ w w' : CtxWork D E1apBearerCtxSetupRsp} {i : Nat} {item : PdusSetupReqInfo}
    {succ : PdusSetupSuccRspInfo} {list : CArray maxPdusPerUe PdusSetupSuccRspInfo}
    (h : PdusLoop req w₀ i w) (hitem : req.pdusList.get? i = some item)
    (hlist : w.rsp.pdusSuccList.set? w.rsp.pdusSetupSuccCount succ = some list)
    (hgrown : Grown w.tun w.ctx w'.tun w'.ctx)
    (hrsp : w'.rsp = { w.rsp with
      pdusSuccList := list, pdusSetupSuccCount := w.rsp.pdusSetupSuccCount + 1 })
    (hans : PdusAnswered (HeldFor w'.tun w'.ctx.Lists) item succ) (hnodup : succ.keys.Nodup)
    (hnew : ∀ k, k ∈ succ.keys →
      w.tun.rowOf k = none ∧ ∀ x, w.ctx.Lists x → w.tun.keyAt x ≠ k) :
    PdusLoop req w₀ (i + 1) w' := by
  have hkeys : w'.rsp.keys = w.rsp.keys ++ succ.keys := by
    rw [hrsp]
    change (list.firstN (w.rsp.pdusSetupSuccCount + 1)).flatMap _ = _
    rw [CArray.firstN_succ_set? hlist, List.flatMap_append, List.flatMap_singleton]
    rfl
  have hbefore := h.answered.imp fun k ip te hk =>
    HeldFor.mono hk hgrown.lists hgrown.kept
  refine ⟨h.grown.trans hgrown, ⟨?_, ?_⟩, ?_, ?_, ?_⟩
  · have := h.answered.counts
    rw [hrsp]
    change w.rsp.pdusSetupSuccCount + 1 + w.rsp.pdusSetupFailCount = i + 1
    omega
  · rw [hrsp]
    change OutcomeSplit _ _ (req.pdusList.firstN (i + 1))
      (list.firstN (w.rsp.pdusSetupSuccCount + 1))
      (w.rsp.pdusFailList.firstN w.rsp.pdusSetupFailCount)
    rw [CArray.firstN_succ hitem, CArray.firstN_succ_set? hlist]
    exact hbefore.split.append_success hans
  · rw [hkeys]
    refine List.nodup_append.mpr ⟨h.nodup, hnodup, ?_⟩
    intro k hk k' hk' heq
    obtain ⟨x, hx, hkey⟩ := h.held k hk
    exact (hnew k' hk').2 x hx (hkey.trans heq)
  · intro k hk
    rw [hkeys, List.mem_append] at hk
    rcases hk with hk | hk
    · exact h.fresh k hk
    · have hnone := (hnew k hk).1
      cases hrow : w₀.tun.rowOf k with
      | none => rfl
      | some x => simp [h.grown.rows k x hrow] at hnone
  · intro k hk
    rw [hkeys, List.mem_append] at hk
    rcases hk with hk | hk
    · exact h.held_grown hgrown hk
    · exact hans.held_of_mem hk

/-- **One turn of the service loop.** -/
theorem PdusLoop.step {req : E1apBearerCtxSetupReq} (hacc : D.tunnelHash.Accepts)
    {w₀ w w' : CtxWork D E1apBearerCtxSetupRsp} {i : Nat} (h : PdusLoop req w₀ i w)
    (hstep : e1apSetupPdus env req i w = some w') : PdusLoop req w₀ (i + 1) w' := by
  obtain ⟨item, slot, out, list, hitem, hout, hlist, htun, hctx, hrsp⟩ :=
    e1apSetupPdus_cases hstep
  obtain ⟨hgrown, hanswer⟩ := h.grown.work.pdusSetup h.grown.full hacc hout
  rw [← htun, ← hctx] at hgrown hanswer
  rcases hrsp with ⟨fail, failList, hfail, hset, hrsp⟩ | ⟨hnofail, hrsp⟩
  · have hid : fail.pdusId = item.pdusId := by
      rcases hanswer with ⟨cause, hc⟩ | ⟨hnone, _⟩
      · rw [hfail] at hc
        cases hc
        rfl
      · simp [hfail] at hnone
    exact h.refused hitem hid hlist hset hgrown hrsp
  · rcases hanswer with ⟨cause, hc⟩ | ⟨_, hans, hnodup, hnew⟩
    · simp [hnofail] at hc
    · exact h.served hitem hlist hgrown hrsp hans hnodup hnew

theorem PdusLoop.run {req : E1apBearerCtxSetupReq} (hacc : D.tunnelHash.Accepts)
    {w₀ w : CtxWork D E1apBearerCtxSetupRsp} {n : Nat} (h₀ : PdusLoop req w₀ 0 w₀)
    (hrun : forRange (e1apSetupPdus env req) n w₀ = some w) : PdusLoop req w₀ n w :=
  forRange_invariant (fun i w => PdusLoop req w₀ i w) h₀
    (fun _ _ _ _ h hstep => h.step hacc hstep) hrun

/-! ### The commit -/

/-- The loop that commits the tunnels of a list commits every one of them. -/
theorem Ready.commitTunnels {n : Nat} {list : CArray n (Option TunnelIdx)} {count : Nat}
    (h : Ready T held) (hacc : D.tunnelHash.Accepts)
    (hlist : ∀ i, i < count → ∃ x, list.deref? i = some x ∧ held x) :
    ∃ T', commitTunnels count (T, list) = some (T', list) ∧ Ready T' held ∧
      T'.tunnelTable = T.tunnelTable ∧ (∀ k x, T.rowOf k = some x → T'.rowOf k = some x) ∧
      ∀ i x, i < count → list.deref? i = some x → T'.rowOf (T.keyAt x) = some x := by
  let Inv : Nat → TunnelTable D × CArray n (Option TunnelIdx) → Prop := fun i s =>
    s.2 = list ∧ Ready s.1 held ∧ s.1.tunnelTable = T.tunnelTable ∧
      (∀ k x, T.rowOf k = some x → s.1.rowOf k = some x) ∧
      ∀ j x, j < i → list.deref? j = some x → s.1.rowOf (T.keyAt x) = some x
  have h0 : Inv 0 (T, list) := ⟨rfl, h, rfl, fun _ _ hk => hk, fun j x hj => by omega⟩
  obtain ⟨⟨T', list'⟩, hrun, hlist', hready, hrows, hmono, hdone⟩ :
      ∃ s, Pfm.commitTunnels count (T, list) = some s ∧ Inv count s := by
    refine forRange_isSome Inv h0 ?_
    intro i hex hi hex'
    obtain ⟨T₁, l⟩ := hex
    obtain ⟨hl, hready, hrows, hmono, hdone⟩ := hex'
    simp only at hl hready hrows hmono hdone
    subst hl
    obtain ⟨x, hx, hheld⟩ := hlist i hi
    have hc := hready.commit hacc hheld
    obtain ⟨hready', hmono'⟩ := hready.committed hheld hc
    have hused : (tunnelCommit T₁ (some x)).2.used x = true := hready'.held_used x hheld
    have hkey : T₁.keyAt x = T.keyAt x := by rw [keyAt, hrows]; rfl
    refine ⟨((tunnelCommit T₁ (some x)).2, l), by simp [hx, hused], rfl, hready',
      hc.rows.trans hrows, fun k y hk => hmono' k y (hmono k y hk), fun j y hj hy => ?_⟩
    rcases Nat.lt_succ_iff_lt_or_eq.mp hj with hj | rfl
    · exact hmono' _ _ (hdone j y hj hy)
    · obtain rfl : x = y := by simpa [hx] using hy
      change (tunnelCommit T₁ (some x)).2.rowOf (T.keyAt x) = some x
      rw [← hkey, hc.rowOf_eq, if_pos rfl]
  simp only at hlist' hready hrows hmono hdone
  subst hlist'
  exact ⟨T', hrun, hready, hrows, hmono, fun i x hi hx => hdone i x hi hx⟩

/-- `ue_ctx_commit` of a row with every tunnel listed ready commits every one of
them, and changes no tunnel row. -/
theorem UeCommitted.lists_committed {n : UeIdx} {S S' : Cuup D} {ret : PfmRetval}
    (hc : UeCommitted S n ret S') (h : Ready S.tun (S.ue.ueCtxTable n).Lists)
    (hfull : (S.ue.ueCtxTable n).Full) (hacc : D.tunnelHash.Accepts) :
    S'.tun.tunnelTable = S.tun.tunnelTable ∧
      ∀ x, (S.ue.ueCtxTable n).Lists x → S'.tun.rowOf (S.tun.keyAt x) = some x := by
  have hdrb : ∀ i, i < (S.ue.ueCtxTable n).drbCount →
      ∃ x, (S.ue.ueCtxTable n).drbTunnelList.deref? i = some x ∧
        (S.ue.ueCtxTable n).Lists x := by
    intro i hi
    obtain ⟨x, hx⟩ := hfull.drb i hi
    exact ⟨x, hx, Or.inr ⟨i, hi, hx⟩⟩
  have hpdus : ∀ i, i < (S.ue.ueCtxTable n).pdusCount →
      ∃ x, (S.ue.ueCtxTable n).pdusTunnelList.deref? i = some x ∧
        (S.ue.ueCtxTable n).Lists x := by
    intro i hi
    obtain ⟨x, hx⟩ := hfull.pdus i hi
    exact ⟨x, hx, Or.inl ⟨i, hi, hx⟩⟩
  obtain ⟨T₁, hrun, hready, hrows, _, hdone⟩ := h.commitTunnels hacc hdrb
  obtain rfl : T₁ = hc.tun₁ := by
    have := hrun.symm.trans hc.commitDrb
    simp only [Option.some.injEq, Prod.mk.injEq] at this
    exact this.1
  obtain ⟨T₂, hrun', _, hrows', hmono', hdone'⟩ := hready.commitTunnels hacc hpdus
  obtain rfl : T₂ = S'.tun := by
    have := hrun'.symm.trans hc.commitPdus
    simp only [Option.some.injEq, Prod.mk.injEq] at this
    exact this.1
  refine ⟨hrows'.trans hrows, fun x hx => ?_⟩
  rcases hx with ⟨i, hi, hx⟩ | ⟨i, hi, hx⟩
  · have := hdone' i x hi hx
    rwa [keyAt, hrows] at this
  · exact hmono' _ _ (hdone i x hi hx)

/-- **What a successful setup advertises.**  Every item of the request is answered
in order, the keys advertised differ, none was committed before, and each is now
committed to a row set up for the item it answers.  A request with a count beyond
its array is not served at all. -/
theorem setup_advertises {S S' : Cuup D} {req : E1apBearerCtxSetupReq}
    {rsp rsp' : E1apBearerCtxSetupRsp} (hown : KeysOwnUsedRows S.tun)
    (hacc : D.tunnelHash.Accepts)
    (hsetup : e1apBearerCtxSetup env S req rsp = some (.success, rsp', S')) :
    SetupAnswered (CommittedFor S'.tun) req.pdusCount req rsp' ∧
      0 < rsp'.pdusSetupSuccCount ∧ rsp'.keys.Nodup ∧
      ∀ k, k ∈ rsp'.keys → S.tun.rowOf k = none := by
  have hcases := e1apBearerCtxSetup_cases hsetup
  generalize hret : PfmRetval.success = ret at hcases
  cases hcases with
  | noId | noRow | noneServed | rolledBack => cases hret
  | committed id U U' n w _ S₁ alloc add serve some_served commit done =>
      have hloop := (PdusLoop.start hown U' n req rsp).run hacc serve
      have hup : (w.tables U' n).ue.ueCtxHashtable.isSome = true := by
        rcases ueCtxCommit_split commit with ⟨hfail, _⟩ | ⟨_, _, hup⟩
        · exact absurd hfail done
        · exact hup
      obtain ⟨hc⟩ := ueCtxCommit_cases hup commit
      have hrow : (w.tables U' n).ue.ueCtxTable n = w.ctx := UeCtxTable.setRow_self _
      obtain ⟨hrows, hmapped⟩ := hc.lists_committed
        (by rw [hrow]; exact hloop.grown.work.toReady) (by rw [hrow]; exact hloop.grown.full)
        hacc
      rw [hrow] at hmapped
      refine ⟨hloop.answered.imp fun k ip te hk => ?_, Nat.pos_of_ne_zero some_served,
        hloop.nodup, hloop.fresh⟩
      obtain ⟨x, hx, rfl, hip, hte⟩ := hk
      exact ⟨x, hmapped x hx, by rw [hrows]; exact hip, by rw [hrows]; exact hte⟩

/-- The second setup request is the first that is served: one PDU session with one
DRB. -/
theorem setup_advertises_oneSetup :
    ∃ S rsp' S', exec e1apStep (Cuup.init listDpdk) [oneSetup] = some S ∧
      e1apBearerCtxSetup upfEnv S oneSetupReq setupRsp = some (.success, rsp', S') ∧
      SetupAnswered (CommittedFor S'.tun) 1 oneSetupReq rsp' ∧
      0 < rsp'.pdusSetupSuccCount ∧ rsp'.keys.Nodup ∧
      ∀ k, k ∈ rsp'.keys → S.tun.rowOf k = none := by
  have hdec : ((exec e1apStep (Cuup.init listDpdk) [oneSetup]).bind fun S =>
      (e1apBearerCtxSetup upfEnv S oneSetupReq setupRsp).map fun out =>
        decide (S.tun.tunnelHashtable = none ∧ out.1 = .success)) = some true := by
    decide
  obtain ⟨S, hS, hout⟩ := Option.bind_eq_some_iff.mp hdec
  obtain ⟨⟨ret, rsp', S'⟩, hsetup, hfacts⟩ := Option.map_eq_some_iff.mp hout
  obtain ⟨hdown, rfl⟩ : S.tun.tunnelHashtable = none ∧ ret = .success :=
    of_decide_eq_true hfacts
  have hnone : ∀ k, S.tun.rowOf k = none := rowOf_of_down hdown
  have hown : KeysOwnUsedRows S.tun :=
    ⟨.of_unmapped hnone, fun k r hk => by simp [hnone k] at hk⟩
  exact ⟨S, rsp', S', hS, hsetup, setup_advertises hown
    (listHash_accepts TunnelKey TunnelIdx maxTunnelCount) hsetup⟩

end Pfm
