import Pfm.Gtp

/-!
# GTP paths

`gtp.c` on the side of the paths: they are added and deleted with the tunnels that use
them, and supervised by a timer each that sends echo requests.

The library keeps one hash table of a name.  A key is added without data, so the data
pointer that `rte_hash_lookup_data` gives for it is NULL; using that is `none`, and so
is a store to the first page.  What `pfm_data_req` does with an echo request is not part
of the state here.
-/

namespace Pfm

open BoundedLoop ByteBuffer

abbrev n3Requests : Nat := 5

/-- What the libraries answer a call: whether `rte_hash_create` gives a table for a name
that is not taken, whether `rte_timer_subsystem_init` gives 0, and what
`rte_pktmbuf_alloc` returns. -/
structure GtpLib (M : RteMbuf) where
  hashCreate : Bool
  timerInit : Bool
  alloc : Option M.Mbuf

/-- The timer of a path: stopped, or running to one of its two callbacks. -/
inductive GtpTimer where
  | stopped
  | echoRequest
  | echoResponseTimeout
  deriving DecidableEq

/-- The statics of `gtp.c`, and whether there is a hash table of its name. -/
structure GtpState (D : Dpdk) where
  table : GtpTable D
  gtpTableUp : Bool
  hashNamed : Bool
  echoTimer : CArray maxGtpPath GtpTimer

/-- The arguments of `gtp_path_add`. -/
structure GtpPathArgs where
  localIp : PfmIpAddr
  localPortNo : Int
  remoteIp : PfmIpAddr
  remotePortNo : Int

variable {D : Dpdk} {M : RteMbuf}

namespace GtpState

/-- The state at program start. -/
def init (D : Dpdk) : GtpState D := ⟨GtpTable.init D, false, false, fun _ => .stopped⟩

/-- The state with another hash table. -/
def withHash (S : GtpState D) (h : Option D.gtpHash.Table) : GtpState D :=
  { S with table := { S.table with gtpTableHash := h } }

/-- Write a row. -/
def setRow (S : GtpState D) (r : Fin maxGtpPath) (e : GtpPathInfo) : GtpState D :=
  { S with table := { S.table with gtpTable := Function.update S.table.gtpTable r e } }

/-- Set the timer of a row. -/
def setTimer (S : GtpState D) (r : Fin maxGtpPath) (t : GtpTimer) : GtpState D :=
  { S with echoTimer := Function.update S.echoTimer r t }

end GtpState

/-- The data pointer of a key that was added without data: NULL. -/
def gtpEntryPtr (_ : Unit) : Option (Fin maxGtpPath) := none

def gtpTableInit (lib : GtpLib M) (S : GtpState D) : PfmRetval × GtpState D :=
  if lib.hashCreate ∧ S.hashNamed = false then
    let S : GtpState D := { S.withHash (some D.gtpHash.empty) with hashNamed := true }
    if lib.timerInit then (.success, { S with echoTimer := fun _ => .stopped })
    else (.failed, S)
  else (.failed, S.withHash none)

/-- A row that was cleared. -/
def GtpPathInfo.cleared : GtpPathInfo := ⟨0, 0, 0, 0, 0, 0⟩

def gtpPathClear (S : GtpState D) (r : Fin maxGtpPath) : PfmRetval × GtpState D :=
  let S := S.setTimer r .stopped
  let deleted := D.gtpHash.del S.table.gtpTableHash (S.table.gtpTable r).remoteIp
  let S := S.withHash deleted.2
  if deleted.1 = -ENOENT ∨ deleted.1 = -EINVAL then (.success, S)
  else (.success, S.setRow r .cleared)

/-- The tunnel id is stored through a pointer made of the value of a byte of the new
packet, `(uint32_t*)packet[4]`. -/
def gtpEchoRequestSend (t : GtpPathInfo) (alloc : Option M.Mbuf) :
    Option (PfmRetval × Option (DataReq M)) :=
  match alloc with
  | none => some (.failed, none)
  | some mbuf => do
      let mbuf := M.store mbuf 0 [0x30, 0x01, 0x00, 0x00]
      let mbuf ← RteMbuf.storeAt mbuf (RteMbuf.byte mbuf 4).toNat [0, 0, 0, 0]
      some (.success, some
        { localIpAddr := t.localIp
          remoteIpAddr := t.remoteIp
          protocol := .udp
          localPortNo := t.localPortNo.toNat
          remotePortNo := t.remotePortNo.toNat
          mbuf := mbuf })

/-- The end of `gtp_path_add`: one more tunnel, and the path is asked for an echo. -/
def gtpPathStart (lib : GtpLib D.mbuf) (S : GtpState D) (r : Fin maxGtpPath) :
    Option (PfmRetval × GtpState D) := do
  let entry := S.table.gtpTable r
  let S := S.setRow r { entry with tunnelCount := entry.tunnelCount + 1 }
  let _ ← gtpEchoRequestSend (S.table.gtpTable r) lib.alloc
  some (.success, S.setTimer r .echoResponseTimeout)

/-- A new path. -/
def GtpPathArgs.path (args : GtpPathArgs) : GtpPathInfo where
  remoteIp := args.remoteIp
  remotePortNo := UInt16.ofInt args.remotePortNo
  localIp := args.localIp
  localPortNo := UInt16.ofInt args.localPortNo
  tunnelCount := 0
  retryCount := 0

/-- The part of `gtp_path_add` behind the initialisation. -/
def gtpPathAddUp (lib : GtpLib D.mbuf) (S : GtpState D) (args : GtpPathArgs) :
    Option (PfmRetval × GtpState D) :=
  let looked := D.gtpHash.lookup S.table.gtpTableHash args.remoteIp
  if looked.1 = -ENOENT then
    let added := D.gtpHash.addKey S.table.gtpTableHash args.remoteIp ()
    let S := S.withHash added.2
    if added.1 < 0 then some (.failed, S)
    else do
      let r ← CArray.index? maxGtpPath added.1
      gtpPathStart lib (S.setRow r args.path) r
  else if looked.1 = -EINVAL then some (.failed, S)
  else do
    let r ← looked.2.bind gtpEntryPtr
    gtpPathStart lib S r

/-- `gtp_table_up_g` is read and never set. -/
def gtpPathAdd (lib : GtpLib D.mbuf) (S : GtpState D) (args : GtpPathArgs) :
    Option (PfmRetval × GtpState D) :=
  if S.gtpTableUp then gtpPathAddUp lib S args
  else
    let init := gtpTableInit lib S
    if init.1 = .failed then some (.failed, init.2) else gtpPathAddUp lib init.2 args

def gtpPathDel (S : GtpState D) (remoteIp : PfmIpAddr) : Option (PfmRetval × GtpState D) :=
  let ret := (D.gtpHash.lookup S.table.gtpTableHash remoteIp).1
  if ret < 0 then some (.failed, S)
  else do
    let r ← CArray.index? maxGtpPath ret
    let entry := S.table.gtpTable r
    let entry := { entry with tunnelCount := entry.tunnelCount - 1 }
    let S := S.setRow r entry
    if entry.tunnelCount ≤ 0 then some (gtpPathClear S r) else some (.success, S)

/-- The message for a key that is not found reads through a pointer that was never
set. -/
def gtpPathTimerReset (S : GtpState D) (gtpPath : GtpPathInfo) :
    Option (PfmRetval × GtpState D) :=
  let looked := D.gtpHash.lookup S.table.gtpTableHash gtpPath.remoteIp
  if looked.1 = -ENOENT then none
  else if looked.1 < 0 then some (.failed, S)
  else do
    let r ← looked.2.bind gtpEntryPtr
    let entry := S.table.gtpTable r
    some (.success, (S.setRow r { entry with retryCount := 0 }).setTimer r .echoResponseTimeout)

def gtpEchoRequestTimerCb (alloc : Option D.mbuf.Mbuf) (S : GtpState D) (r : Fin maxGtpPath) :
    Option (GtpState D) :=
  let entry := S.table.gtpTable r
  let entry := { entry with retryCount := entry.retryCount + 1 }
  let S := S.setRow r entry
  if n3Requests < entry.retryCount.toNat then some (gtpPathClear S r).2
  else do
    let _ ← gtpEchoRequestSend entry alloc
    some (S.setTimer r .echoResponseTimeout)

def gtpEchoResponseTimeoutCb (S : GtpState D) (r : Fin maxGtpPath) : GtpState D :=
  S.setTimer r .echoRequest

/-- An echo request that has a packet to go in is never sent. -/
theorem gtpEchoRequestSend_eq (t : GtpPathInfo) (alloc : Option M.Mbuf) :
    gtpEchoRequestSend t alloc =
      if alloc.isSome then none else some (.failed, none) := by
  cases alloc with
  | none => rfl
  | some mbuf =>
      let stored := M.store mbuf 0 [0x30, 0x01, 0x00, 0x00]
      have hlow : (RteMbuf.byte stored 4).toNat < pageSize :=
        Nat.lt_trans (RteMbuf.byte stored 4).toNat_lt (by decide)
      have hfault := RteMbuf.storeAt_of_lt_pageSize (m := stored) [0, 0, 0, 0] hlow
      simp only [gtpEchoRequestSend, hfault, stored]
      rfl

/-- A path is the row at the hash position of its address. -/
theorem gtpPathGet_eq (g : GtpTable D) (remoteIp : PfmIpAddr) :
    gtpPathGet g remoteIp =
      (D.gtpHash.entry g.gtpTableHash remoteIp).map fun p => g.gtpTable p.1 := by
  unfold gtpPathGet
  cases hentry : D.gtpHash.entry g.gtpTableHash remoteIp with
  | none =>
      have hneg : (D.gtpHash.lookup g.gtpTableHash remoteIp).1 < 0 := by
        have hno := RteHash.lookup_nonneg_iff (H := D.gtpHash) (t := g.gtpTableHash)
          (k := remoteIp)
        rw [hentry] at hno
        simp only [Option.isSome_none, Bool.false_eq_true, iff_false] at hno
        omega
      rw [if_pos hneg]
      rfl
  | some p =>
      rw [RteHash.lookup_of_entry hentry, if_neg (by simp)]
      simp [CArray.get?]

end Pfm
