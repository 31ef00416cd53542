import EnaDriver.Datapath.Placements
import EnaDriver.Netdev.Transmit

/-!
# The bytes of a packet that the device sends

A descriptor in a push buffer comes with a header in the same entry.  The device
sends the header, and then what the descriptor references in host memory.  The push
copies the first bytes of a packet into the entry, and the descriptor next to them
references the whole packet all the same: the header is sent twice.
-/

namespace EnaDriver.Netdev

open Support.Windows Support.Fields Support.Runs
open Datapath

/-! ## What the device sends -/

def inlineHeader : Event → List UInt8
  | .llqEntry _ _ _ header => header
  | _ => []

def busBytes (bus : Nat → UInt8) (address length : Nat) : List UInt8 :=
  (List.range length).map fun i => bus (address + i)

/-- What the device sends for a call: the header that the call pushes, and the bytes
that its descriptor references. -/
def sentBytes (slot : Nat) (bus : Nat → UInt8) (out : TxOutcome) : List UInt8 :=
  out.events.flatMap inlineHeader ++
    busBytes bus (out.desc slot).fields.address (out.desc slot).fields.length

/-- The memory of the bus when a packet is queued: a packet that goes through a bounce
slot has been copied there. -/
def xmitMemory (build : Build) (frame : TxFrame) (q : TxQueue) (bus : Nat → UInt8) :
    Option Nat → Nat → UInt8
  | none => bus
  | some slot => fun address =>
    let start := xmitAddr build frame q (some slot)
    if start ≤ address then frame.bytes[address - start]?.getD (bus address) else bus address

/-- A packet that a descriptor can hold, at its bus address unless it is copied. -/
structure Sendable (build : Build) (frame : TxFrame) (q : TxQueue) (bus : Nat → UInt8)
    (slot : Option Nat) : Prop where
  data : frame.nb.data ≠ 0
  length : frame.bytes.length = frame.nb.len
  positive : 0 < frame.nb.len
  short : frame.nb.len ≤ 0xFFFF
  address : xmitAddr build frame q slot < 2 ^ 48
  inMemory : slot = none → busBytes bus (frame.phys build) frame.nb.len = frame.bytes

section Sent

variable {build : Build} {frame : TxFrame} {q : TxQueue} {bus : Nat → UInt8} {slot : Option Nat}
  {r : Ring}

theorem xmitPkt_source (build : Build) (frame : TxFrame) (q : TxQueue) (slot : Option Nat) :
    (xmitPkt build frame q slot).physAddr = xmitAddr build frame q slot ∧
      (xmitPkt build frame q slot).len = frame.nb.len % 2 ^ 32 := by
  unfold xmitPkt enaNetdevClassifyTxPkt
  split <;> exact ⟨rfl, rfl⟩

theorem inlineHeader_of_none {events : List Event}
    (none : events.findSome? Event.pushedDesc? = none) :
    events.flatMap inlineHeader = [] := by
  rw [List.flatMap_eq_nil_iff]
  intro event member
  have unpushed := List.findSome?_eq_none_iff.mp none event member
  cases event with
  | llqEntry offset size desc header => cases unpushed
  | _ => rfl

section

variable (sendable : Sendable build frame q bus slot)
include sendable

/-- The memory that the descriptor references holds the packet. -/
theorem Sendable.placed :
    busBytes (xmitMemory build frame q bus slot) (xmitAddr build frame q slot) frame.nb.len =
      frame.bytes := by
  cases slot with
  | none => exact sendable.inMemory rfl
  | some slot =>
    apply List.ext_getElem
    · rw [busBytes, List.length_map, List.length_range, sendable.length]
    · intro i _ inside
      simp [busBytes, xmitMemory, inside]

theorem Sendable.len : (xmitPkt build frame q slot).len = frame.nb.len := by
  have short := sendable.short
  rw [(xmitPkt_source build frame q slot).2, Nat.mod_eq_of_lt (by omega)]

/-- The header length of a packet is positive and within the packet. -/
theorem Sendable.header (capacity : Nat) :
    0 < min (xmitPkt build frame q slot).len (if capacity = 0 then 96 else capacity) % 2 ^ 16 ∧
      min (xmitPkt build frame q slot).len (if capacity = 0 then 96 else capacity) % 2 ^ 16 ≤
        frame.bytes.length := by
  have positive := sendable.positive
  have short := sendable.short
  rw [sendable.len, sendable.length]
  split <;> omega

omit sendable in
/-- A submission that is accepted writes the descriptor of its packet. -/
theorem submitOutcome_accepted {cpu : Nat} {pkt : TxPkt}
    (accepted : (submitOutcome r cpu pkt).ret = 0) :
    ∃ reqId, (submitOutcome r cpu pkt).ring.txDescs r.sqSlot =
      txSubmitDesc pkt reqId r.sqTail.phase := by
  revert accepted
  unfold submitOutcome
  split
  · exact nofun
  split
  · cases enaRingReqIdAlloc r.sqDepth r.pool with
    | none => exact nofun
    | some taken => exact fun _ => ⟨taken.1, store_same _ _ _⟩
  · exact nofun

/-- A packet in host memory is sent as it is. -/
theorem Sendable.submitted {cpu : Nat} {copies : List Event}
    (quiet : copies.findSome? Event.pushedDesc? = none)
    (accepted : (submitOutcome r cpu (xmitPkt build frame q slot)).ret = 0) :
    sentBytes r.sqSlot (xmitMemory build frame q bus slot)
      { submitOutcome r cpu (xmitPkt build frame q slot) with
        events := copies ++ (submitOutcome r cpu (xmitPkt build frame q slot)).rung.events } =
      frame.bytes := by
  have short := sendable.short
  have source := (xmitPkt_source build frame q slot).1
  have silent : (copies ++ (submitOutcome r cpu (xmitPkt build frame q slot)).rung.events).findSome?
      Event.pushedDesc? = none := by
    rw [List.findSome?_append, quiet, TxOutcome.rung, (submitOutcome_hostPlaced r cpu _).2,
      List.nil_append, if_pos accepted]
    exact enaTxDoorbell_pushes_nothing _
  obtain ⟨reqId, wrote⟩ := submitOutcome_accepted accepted
  have length : field (txSubmitDesc (xmitPkt build frame q slot) reqId r.sqTail.phase).lenCtrl 0 16 =
      frame.nb.len := by
    rw [length_read rfl, sendable.len, Nat.mod_eq_of_lt (by omega)]
  have address := @address_read _ (txSubmitDesc (xmitPkt build frame q slot) reqId r.sqTail.phase) _
    (source ▸ sendable.address) rfl txSubmitDesc_high
  unfold sentBytes TxOutcome.desc
  dsimp only
  rw [inlineHeader_of_none silent, silent, Option.getD_none, wrote, TxDesc.fields]
  dsimp only
  rw [length, address, source, List.nil_append]
  exact sendable.placed

/-- A push sends its header in front of the packet. -/
theorem Sendable.pushed {stale : List UInt8} {hdrLen : Nat} (positive : 0 < hdrLen)
    (inside : hdrLen ≤ frame.bytes.length)
    (accepted : (pushOutcome r (xmitPkt build frame q slot) (xmitHeader frame stale slot) hdrLen).ret = 0) :
    sentBytes r.sqSlot (xmitMemory build frame q bus slot)
      (pushOutcome r (xmitPkt build frame q slot) (xmitHeader frame stale slot) hdrLen) ≠
        frame.bytes := by
  have short := sendable.short
  have header : pushedHeader (xmitHeader frame stale slot) hdrLen = frame.bytes.take hdrLen := by
    cases slot <;> simp [pushedHeader, xmitHeader, sendable.data]
  unfold pushOutcome at accepted ⊢
  cases found : enaRingReqIdAlloc r.sqDepth r.pool with
  | none =>
    rw [found] at accepted
    cases accepted
  | some taken =>
    intro same
    have length : field (llqDesc (xmitPkt build frame q slot) taken.1 r.sqTail.phase hdrLen).lenCtrl
        0 16 = frame.nb.len := by
      rw [length_read rfl, sendable.len, Nat.mod_eq_of_lt (by omega)]
    have total := congrArg List.length same
    simp only [sentBytes, TxOutcome.desc, busBytes, TxDesc.fields, List.flatMap_cons, inlineHeader,
      List.findSome?_cons, Event.pushedDesc?, Option.getD_some, List.length_append, List.length_map,
      List.length_range, length, header, List.length_take, sendable.length] at total inside
    omega

end

end Sent

/-- For every packet that the netdev layer queues on a ring with a push buffer: the
bytes sent are those of the packet, each once and in order, exactly when the push
falls back to host memory. -/
theorem sent_bytes_exact_iff (build : Build) (frame : TxFrame) (q : TxQueue) (slot : Option Nat)
    (stale : List UInt8) (bus : Nat → UInt8) (cpu : Nat) (r : Ring)
    (sendable : Sendable build frame q bus slot) (transmit : r.ringType = .tx)
    (unlocked : r.ringLock = false) (llq : r.hw.isLlq = true) {out : TxOutcome}
    (ran : enaNetdevTxXmitOne r cpu (xmitPkt build frame q slot) (xmitHeader frame stale slot) =
      .ok out) (accepted : out.ret = 0) :
    sentBytes r.sqSlot (xmitMemory build frame q bus slot) out = frame.bytes ↔
      llqFallsBack r = true := by
  obtain ⟨positive, inside⟩ := sendable.header r.hw.llqHeaderLen
  unfold enaNetdevTxXmitOne at ran
  rw [if_pos llq] at ran
  by_cases fits : min (xmitPkt build frame q slot).len
      (if r.hw.llqHeaderLen = 0 then 96 else r.hw.llqHeaderLen) % 2 ^ 16 ≤ r.hw.headerCap
  · cases falls : llqFallsBack r with
    | true =>
      rw [enaLlqTxPush_fallback cpu _ _ transmit unlocked fits falls] at ran
      cases ran
      exact ⟨fun _ => rfl, fun _ =>
        sendable.submitted (fallbackHeaderCopy_pushes_nothing _ _ _) accepted⟩
    | false =>
      rw [enaLlqTxPush_device cpu _ _ transmit unlocked fits falls] at ran
      cases ran
      exact ⟨fun same => absurd same (sendable.pushed positive inside accepted), nofun⟩
  · rw [enaLlqTxPush_long cpu _ _ transmit (Nat.lt_of_not_le fits)] at ran
    cases ran
    cases accepted

def oneByte : TxFrame := ⟨⟨1, 1, 1, 1, dmaLowMemLimit, 0, 0, false, false, false⟩, 0, [7]⟩

def plainQueue : TxQueue := ⟨0, none, false, 0, 0⟩

theorem oneByte_sendable : Sendable .unikraft oneByte plainQueue (fun _ => 7) none where
  data := by decide
  length := rfl
  positive := by decide
  short := by decide
  address := by decide
  inMemory := fun _ => rfl

def unmappedRing : Ring :=
  { pushRing true with hw := { (pushRing true).hw with pushBufVirt := none } }

theorem sent_bytes_exact_iff_fallback :
    ∃ out, enaNetdevTxXmitOne unmappedRing 0 (xmitPkt .unikraft oneByte plainQueue none)
        (xmitHeader oneByte [] none) = .ok out ∧
      sentBytes unmappedRing.sqSlot (fun _ => 7) out = [7] := by
  have observed : (enaNetdevTxXmitOne unmappedRing 0 (xmitPkt .unikraft oneByte plainQueue none)
      (xmitHeader oneByte [] none)).toOption.map TxOutcome.ret = some 0 := by decide +kernel
  obtain ⟨out, ran, accepted⟩ := ok_of_observed observed
  exact ⟨out, ran, (sent_bytes_exact_iff .unikraft oneByte plainQueue none [] (fun _ => 7) 0
    unmappedRing oneByte_sendable rfl rfl rfl ran accepted).mpr rfl⟩

/-- A push sends the byte in its entry, and once more from host memory. -/
theorem push_sends_header_twice :
    (enaNetdevTxXmitOne (pushRing true) 0 (xmitPkt .unikraft oneByte plainQueue none)
      (xmitHeader oneByte [] none)).toOption.map
        (fun out => (out.ret, sentBytes (pushRing true).sqSlot (fun _ => 7) out)) = some (0, [7, 7]) ∧
      oneByte.bytes = [7] := by
  decide +kernel

end EnaDriver.Netdev
