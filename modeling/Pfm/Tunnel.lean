import Pfm.CircularScan
import Pfm.NextHop

/-!
# The tunnel table

`tunnel.c`: one table of rows shared by PDU-session and DRB tunnels, and a hash
from (local IP, TEID) to row.  A caller gets a row with `tunnelAdd` or
`tunnelModify`, fills it in, and makes it current with `tunnelCommit` or gives
it back with `tunnelRollback`.  `tunnelRemove` only clears the row's used flag;
its key leaves the hash at the commit.

`tunnel_table_up_g` is set exactly where `rte_hash_create` has returned a table
and is never cleared, so the table is up when `tunnelHashtable` is not NULL.
-/

namespace Pfm

open BoundedLoop CircularScan

/-- `tunnel_type_t`. -/
inductive TunnelType where
  | pdus
  | drb
  deriving DecidableEq

/-- `flow_type_t`. -/
inductive FlowType where
  | unused
  | dl
  | ul
  | ulDl
  deriving DecidableEq

/-- `flow_info_t`. -/
structure FlowInfo where
  flowType : FlowType
  rQosStatus : BitVec 2
  mappedDrbIdx : UInt32

/-- The union of `pdus_info_t` and `drb_info_t`, as the two lie over each other
on a little-endian machine: `pdus_id` is the byte made of `drb_id` and the three
DRB flags, and `mapped_pdus_idx` is the low half of
`ul_new_flow_detected_bit_map`. -/
structure TunnelInfo where
  drbId : BitVec 5
  isDefault : Bool
  isDlSdapHdrEnabled : Bool
  isUlSdapHdrEnabled : Bool
  flowCount : BitVec 6
  mappedFlowIdx : UInt32
  ulNewFlowDetectedBitMap : UInt64
  flowList : CArray maxFlowsPerPdus FlowInfo

namespace TunnelInfo

/-- `pdus_info.pdus_id`. -/
def pdusId (i : TunnelInfo) : UInt8 :=
  UInt8.ofNat (i.drbId.toNat + 32 * i.isDefault.toNat +
    64 * i.isDlSdapHdrEnabled.toNat + 128 * i.isUlSdapHdrEnabled.toNat)

/-- `pdus_info.pdus_id = id`. -/
def setPdusId (i : TunnelInfo) (id : UInt8) : TunnelInfo :=
  { i with
    drbId := BitVec.ofNat 5 id.toNat
    isDefault := id.toNat.testBit 5
    isDlSdapHdrEnabled := id.toNat.testBit 6
    isUlSdapHdrEnabled := id.toNat.testBit 7 }

/-- `drb_info.drb_id = id`, which keeps the five bits the field has. -/
def setDrbId (i : TunnelInfo) (id : UInt8) : TunnelInfo :=
  { i with drbId := BitVec.ofNat 5 id.toNat }

/-- `drb_info.mapped_pdus_idx`. -/
def mappedPdusIdx (i : TunnelInfo) : UInt32 :=
  i.ulNewFlowDetectedBitMap.toUInt32

end TunnelInfo

/-- `tunnel_t`. -/
structure Tunnel where
  key : TunnelKey
  remoteIp : PfmIpAddr
  remoteTeId : UInt32
  tunnelType : TunnelType
  isRowUsed : Bool
  info : TunnelInfo

/-- A row of a table that is still all zeros. -/
def Tunnel.zero : Tunnel where
  key := ⟨0, 0⟩
  remoteIp := 0
  remoteTeId := 0
  tunnelType := .pdus
  isRowUsed := false
  info :=
    { drbId := 0
      isDefault := false
      isDlSdapHdrEnabled := false
      isUlSdapHdrEnabled := false
      flowCount := 0
      mappedFlowIdx := 0
      ulNewFlowDetectedBitMap := 0
      flowList := fun _ => ⟨.unused, 0, 0⟩ }

/-- The statics of `tunnel.c`. -/
structure TunnelTable (D : Dpdk) where
  tunnelTable : TunnelIdx → Tunnel
  lastAllocatedSlot : TunnelIdx
  tunnelHashtable : Option D.tunnelHash.Table
  lastAssignedId : Fin maxTunnelCount

/-- What a request finds outside the tables it works on: the ARP and route
tables, and whether `rte_hash_create` succeeds. -/
structure Env (D : Dpdk) where
  arp : ArpTable D
  route : RouteTable D
  tunnelHashCreate : Bool
  ueHashCreate : Bool

variable {D : Dpdk}

namespace TunnelTable

/-- The table at program start. -/
def init (D : Dpdk) : TunnelTable D where
  tunnelTable _ := Tunnel.zero
  lastAllocatedSlot := 0
  tunnelHashtable := none
  lastAssignedId := 0

/-- Write a row. -/
def setRow (T : TunnelTable D) (r : TunnelIdx) (t : Tunnel) : TunnelTable D :=
  { T with tunnelTable := Function.update T.tunnelTable r t }

/-- `tunnel_table_g[r].is_row_used = b`. -/
def setUsed (T : TunnelTable D) (r : TunnelIdx) (b : Bool) : TunnelTable D :=
  T.setRow r { T.tunnelTable r with isRowUsed := b }

/-- Give row `r` out for `key`. -/
def takeRow (T : TunnelTable D) (r : TunnelIdx) (key : TunnelKey) : TunnelTable D :=
  { T.setRow r { T.tunnelTable r with isRowUsed := true, key := key } with
    lastAllocatedSlot := r }

/-- The table right after a successful `tunnel_table_init`. -/
def cleared (T : TunnelTable D) : TunnelTable D :=
  { T with
    tunnelHashtable := some D.tunnelHash.empty
    tunnelTable := fun i => { T.tunnelTable i with isRowUsed := false } }

/-- The table with another hash table behind it. -/
def withHash (T : TunnelTable D) (h : D.tunnelHash.Table) : TunnelTable D :=
  { T with tunnelHashtable := some h }

/-- The key stored in a row. -/
def keyAt (T : TunnelTable D) (r : TunnelIdx) : TunnelKey := (T.tunnelTable r).key

/-- `tunnel_table_g[r].is_row_used`. -/
def used (T : TunnelTable D) (r : TunnelIdx) : Bool := (T.tunnelTable r).isRowUsed

/-- The hash entry of a key: its position and the row it maps to. -/
def entry (T : TunnelTable D) (k : TunnelKey) : Option (Fin maxTunnelCount × TunnelIdx) :=
  D.tunnelHash.entry T.tunnelHashtable k

/-- The row a committed key maps to. -/
def rowOf (T : TunnelTable D) (k : TunnelKey) : Option TunnelIdx :=
  (T.entry k).map Prod.snd

/-- How many keys are committed. -/
def keyCount (T : TunnelTable D) : Nat :=
  match T.tunnelHashtable with
  | none => 0
  | some h => (D.tunnelHash.keys h).card

end TunnelTable

open TunnelTable

def tunnelTableInit (env : Env D) (T : TunnelTable D) : PfmRetval × TunnelTable D :=
  if env.tunnelHashCreate then (.success, T.cleared)
  else (.failed, { T with tunnelHashtable := none })

/-- "Check if the table is up, else initialize it", at the start of
`tunnel_key_alloc` and `tunnel_add`; `none` when the initialisation failed. -/
def tunnelTableEnsureUp (env : Env D) (T : TunnelTable D) :
    Option (TunnelTable D) :=
  if T.tunnelHashtable.isSome then some T
  else match tunnelTableInit env T with
    | (.success, T') => some T'
    | _ => none

/-- `pfm_str2ip("192.168.0.1")`. -/
def f1uLocalIp : PfmIpAddr := 0xC0A80001

/-- The `switch (ttype)` of `tunnel_key_alloc`. -/
def tunnelLocalIp (env : Env D) (remoteIp : PfmIpAddr) : TunnelType → Option PfmIpAddr
  | .pdus => (nextHop env.arp env.route remoteIp).map PfmArpEntry.srcIpAddr
  | .drb => some f1uLocalIp

/-- What the search for a free id makes of one lookup code. -/
def idProbe (ret : Int) : Probe :=
  if ret = -ENOENT then .take else if ret = -EINVAL then .stop else .next

/-- The key with local address `ip` and tunnel id `i`. -/
def teKey (ip : PfmIpAddr) (i : Fin maxTunnelCount) : TunnelKey :=
  ⟨ip, UInt32.ofNat i.val⟩

/-- `none` is `PFM_FAILED`. -/
def tunnelKeyAlloc (env : Env D) (T : TunnelTable D) (remoteIp : PfmIpAddr)
    (ttype : TunnelType) : Option TunnelKey × TunnelTable D :=
  match tunnelTableEnsureUp env T with
  | none => (none, T)
  | some T =>
      match tunnelLocalIp env remoteIp ttype with
      | none => (none, T)
      | some ip =>
          match scan (fun i => idProbe
              (D.tunnelHash.lookup T.tunnelHashtable (teKey ip i)).1) T.lastAssignedId with
          | none => (none, T)
          | some i => (some (teKey ip i), { T with lastAssignedId := i })

/-- What the search for a free row makes of one row. -/
def rowProbe (used : Bool) : Probe := if used then .next else .take

def tunnelAlloc (T : TunnelTable D) (key : TunnelKey) : Option TunnelIdx × TunnelTable D :=
  match scan (fun i => rowProbe (T.used i)) T.lastAllocatedSlot with
  | none => (none, T)
  | some i => (some i, T.takeRow i key)

/-- Only a lookup code of zero counts as a hit. -/
def tunnelGet (T : TunnelTable D) (key : TunnelKey) : Option TunnelIdx :=
  if T.tunnelHashtable.isNone then none
  else
    let ret := D.tunnelHash.lookup T.tunnelHashtable key
    if ret.1 = 0 then ret.2 else none

def tunnelAdd (env : Env D) (T : TunnelTable D) (key : TunnelKey) :
    Option TunnelIdx × TunnelTable D :=
  match tunnelTableEnsureUp env T with
  | none => (none, T)
  | some T =>
      if 0 ≤ (D.tunnelHash.lookup T.tunnelHashtable key).1 then (none, T)
      else tunnelAlloc T key

def tunnelRemove (T : TunnelTable D) (key : TunnelKey) : PfmRetval × TunnelTable D :=
  if T.tunnelHashtable.isNone then (.failed, T)
  else
    let ret := D.tunnelHash.lookup T.tunnelHashtable key
    if ret.1 < 0 then
      if ret.1 = -ENOENT then (.notFound, T) else (.failed, T)
    else
      match ret.2 with
      | none => (.failed, T)
      | some entry => (.success, T.setUsed entry false)

def tunnelModify (T : TunnelTable D) (key : TunnelKey) : Option TunnelIdx × TunnelTable D :=
  if T.tunnelHashtable.isNone then (none, T)
  else if (D.tunnelHash.lookup T.tunnelHashtable key).1 < 0 then (none, T)
  else tunnelAlloc T key

def tunnelCommit (T : TunnelTable D) (nt : Option TunnelIdx) :
    PfmRetval × TunnelTable D :=
  if T.tunnelHashtable.isNone then (.failed, T)
  else match nt with
    | none => (.failed, T)
    | some nt =>
        let key := (T.tunnelTable nt).key
        let ret := D.tunnelHash.lookup T.tunnelHashtable key
        if ret.1 < 0 then
          if ret.1 = -ENOENT then
            let added := D.tunnelHash.add T.tunnelHashtable key nt
            (if added.1 < 0 then .failed else .success,
              { T with tunnelHashtable := added.2 })
          else (.failed, T)
        else match ret.2 with
          | none => (.failed, T)
          | some entry =>
              if nt = entry then
                if T.used entry then (.success, T)
                else
                  let deleted := D.tunnelHash.del T.tunnelHashtable key
                  (if deleted.1 ≠ 0 then .failed else .success,
                    { T with tunnelHashtable := deleted.2 })
              else
                let T := T.setUsed entry false
                let added := D.tunnelHash.add T.tunnelHashtable key nt
                (if added.1 ≠ 0 then .failed else .success,
                  { T with tunnelHashtable := added.2 })

/-- `rte_hash_lookup_data` rejects the key address of a NULL row. -/
def tunnelRollback (T : TunnelTable D) (nt : Option TunnelIdx) :
    PfmRetval × TunnelTable D :=
  if T.tunnelHashtable.isNone then (.failed, T)
  else match nt with
    | none => (.failed, T)
    | some nt =>
        let ret := D.tunnelHash.lookup T.tunnelHashtable (T.tunnelTable nt).key
        if ret.1 < 0 then
          if ret.1 = -ENOENT then
            if T.used nt then (.success, T.setUsed nt false) else (.failed, T)
          else (.failed, T)
        else match ret.2 with
          | none => (.failed, T)
          | some entry =>
              if nt = entry then
                if T.used entry then (.success, T) else (.success, T.setUsed entry true)
              else if T.used nt && T.used entry then (.success, T.setUsed nt false)
              else (.failed, T)

end Pfm
