import Pfm.PacketHeaders

/-!
# Ethernet links

`pfm_link_open` of `pfm_link.c` and `link_start`, which it calls.  A link is known
by three things: the port id that DPDK has for the device, its place in
`link_info_list_g`, and its name, of which the list keeps the first 15 characters.
`link_start` takes a port id and is handed the place.
-/

namespace Pfm

open BoundedLoop

abbrev maxLinkNameLen : Nat := 15
abbrev defaultMtuSize : UInt16 := 1500
abbrev defaultMinMtuSize : UInt16 := 68
abbrev defaultMaxMtuSize : UInt16 := 65535

/-- A C string: the characters before the NUL. -/
structure CStr where
  chars : List UInt8
  no_nul : 0 ∉ chars
  deriving DecidableEq

namespace CStr

theorem zero_notMem_nil : (0 : UInt8) ∉ [] := List.not_mem_nil

/-- The empty string. -/
def empty : CStr := ⟨[], zero_notMem_nil⟩

/-- What `strncpy` leaves of a string in an array of `n + 1` whose last character
is then set to NUL. -/
def trunc (n : Nat) (s : CStr) : CStr := ⟨s.chars.take n, fun h => s.no_nul (List.mem_of_mem_take h)⟩

theorem trunc_eq_self_iff {n : Nat} {s : CStr} : s.trunc n = s ↔ s.chars.length ≤ n := by
  rw [trunc, CStr.mk.injEq, List.take_eq_self_iff]

theorem length_trunc_le (n : Nat) (s : CStr) : (s.trunc n).chars.length ≤ n :=
  List.length_take_le n s.chars

end CStr

/-- `link_info_t`. -/
structure LinkInfo where
  linkId : UInt16
  name : CStr
  mtu : UInt16
  minMtu : UInt16
  maxMtu : UInt16
  macAddr : MacAddr
  opsState : OpsState

/-- `link_info_list_g` and `link_count_g`. -/
structure LinkTable where
  linkInfoList : CArray maxLinkCount LinkInfo
  linkCount : Nat

/-- Program start: zeroed entries. -/
def LinkTable.init : LinkTable where
  linkInfoList _ := ⟨0, CStr.empty, 0, 0, 0, fun _ => 0, .notConfigured⟩
  linkCount := 0

/-- What `rte_ethdev` tells of the devices.  The MTU and the MAC address are to be
had of every port there is. -/
structure RteEthdev where
  /-- `rte_eth_dev_get_port_by_name`, `none` for an error -/
  portByName : CStr → Option UInt16
  /-- `rte_eth_dev_is_valid_port` -/
  isValidPort : UInt16 → Bool
  /-- `rte_eth_dev_get_mtu` -/
  mtu : UInt16 → Option UInt16
  /-- `rte_eth_dev_info_get`: the least and the greatest MTU -/
  mtuRange : UInt16 → Option (UInt16 × UInt16)
  /-- `rte_eth_macaddr_get` -/
  macAddr : UInt16 → Option MacAddr
  mtu_valid : ∀ p, isValidPort p = true → (mtu p).isSome
  macAddr_valid : ∀ p, isValidPort p = true → (macAddr p).isSome

/-- What is done to a device. -/
inductive EthFn where
  | defaultMacAddrSet
  | configure
  | adjustNbRxTxDesc
  | rxQueueSetup
  | txQueueSetup
  | start
  deriving DecidableEq

/-- A call of `rte_ethdev` and what it returns. -/
structure EthCall where
  fn : EthFn
  port : UInt16
  ret : Int
  deriving DecidableEq

/-- What the calls of one `link_start` return. -/
abbrev EthRets := EthFn → Int

/-- `default_mac_addr_g` with the link in its last byte. -/
def autoMacAddr (linkId : UInt16) : MacAddr :=
  fun i => if i.val = 5 then 0xE0 ||| linkId.toUInt8
    else [0x06, 0xA0, 0xB0, 0xC0, 0xD0].getD i.val 0

/-- The calls that bring a port up, in order, up to the first that fails. -/
def bringUp (rets : EthRets) (port : UInt16) : Bool × List EthCall :=
  let call (fn : EthFn) : EthCall := ⟨fn, port, rets fn⟩
  if rets .configure ≠ 0 then (false, [call .configure])
  else if rets .adjustNbRxTxDesc ≠ 0 then (false, [call .configure, call .adjustNbRxTxDesc])
  else if rets .rxQueueSetup ≠ 0 then
    (false, [call .configure, call .adjustNbRxTxDesc, call .rxQueueSetup])
  else if rets .txQueueSetup < 0 then
    (false, [call .configure, call .adjustNbRxTxDesc, call .rxQueueSetup, call .txQueueSetup])
  else
    (rets .start = 0,
      [call .configure, call .adjustNbRxTxDesc, call .rxQueueSetup, call .txQueueSetup,
        call .start])

/-- The entry with what is read of the device, and the call made for it. -/
def readDevice (E : RteEthdev) (rets : EthRets) (port : UInt16) (info : LinkInfo) :
    LinkInfo × List EthCall :=
  let range := (E.mtuRange port).getD (defaultMinMtuSize, defaultMaxMtuSize)
  let info := { info with
    mtu := (E.mtu port).getD defaultMtuSize
    minMtu := range.1
    maxMtu := range.2 }
  match E.macAddr port with
  | some addr => ({ info with macAddr := addr }, [])
  | none =>
      ({ info with macAddr := autoMacAddr port },
        [⟨.defaultMacAddrSet, port, rets .defaultMacAddrSet⟩])

/-- Success, the list afterwards and the calls made.  The port is `link_id`; the
entry is the first that has it for its own, the one after the open links included. -/
def linkStart (E : RteEthdev) (rets : EthRets) (T : LinkTable) (linkId : Nat) :
    Option (Bool × LinkTable × List EthCall) := do
  let found ← firstIndex
    (fun i => (T.linkInfoList.get? i).map fun info => info.linkId.toNat = linkId)
    (T.linkCount + 1)
  match found with
  | none => some (false, T, [])
  | some idx =>
      let port := UInt16.ofNat linkId
      if E.isValidPort port = false then some (false, T, [])
      else do
        let info ← T.linkInfoList.get? idx
        let read := readDevice E rets port info
        let list ← T.linkInfoList.set? idx read.1
        let up := bringUp rets port
        some (up.1, { T with linkInfoList := list }, read.2 ++ up.2)

/-- The value returned, the list afterwards and the calls made. -/
def pfmLinkOpen (E : RteEthdev) (rets : EthRets) (T : LinkTable) (linkName : CStr) :
    Option (Int × LinkTable × List EthCall) := do
  let found ← firstIndex
    (fun i => (T.linkInfoList.get? i).map fun info => info.name = linkName) T.linkCount
  match found with
  | some i => (T.linkInfoList.get? i).map fun info => (info.linkId.toNat, T, [])
  | none =>
      if maxLinkCount ≤ T.linkCount then some (-1, T, [])
      else match E.portByName linkName with
        | none => some (-2, T, [])
        | some linkId => do
            let info ← T.linkInfoList.get? T.linkCount
            let list ← T.linkInfoList.set? T.linkCount
              { info with linkId := linkId, name := linkName.trunc maxLinkNameLen }
            let started ← linkStart E rets { T with linkInfoList := list } T.linkCount
            if started.1 then
              some (linkId.toNat, { started.2.1 with linkCount := T.linkCount + 1 }, started.2.2)
            else some (-3, started.2.1, started.2.2)

end Pfm
