/-
**The UDP tunnel frame: `[flow id: u32, big-endian][payload]`.**

`encode`, `decode` and `payloadLimit` as the data path of both roles uses them.

* `decode_encode` — a frame decodes to the flow and the unchanged payload it was built from;
* `frame_codec` — what is decoded, what is refused and what fits, for every byte string and maximum.
-/

import Mathlib.Data.Fin.Basic
import Mathlib.Data.UInt

namespace IrohTunnel.Udp

/-- A byte string. -/
abbrev Bytes := List UInt8

/-- Bytes of the flow identifier that prefix every tunnel datagram. -/
def headerLen : Nat := 4

/-- Identifier of one flow, a `u32` assigned by Access within a session incarnation. -/
abbrev FlowId := Fin (2 ^ 32)

/-- Why a tunnel datagram could not be decoded. -/
inductive DecodeError
  | malformed
  deriving DecidableEq, Repr

/-- Frame `payload` for `flow`: `put_u32` is big-endian. -/
def encode (flow : FlowId) (payload : Bytes) : Bytes :=
  UInt8.ofNat (flow.val / 2 ^ 24) :: UInt8.ofNat (flow.val / 2 ^ 16) ::
    UInt8.ofNat (flow.val / 2 ^ 8) :: UInt8.ofNat flow.val :: payload

/-- `u32::from_be_bytes`. -/
def fromBeBytes (first second third fourth : UInt8) : FlowId :=
  ⟨first.toNat * 2 ^ 24 + second.toNat * 2 ^ 16 + third.toNat * 2 ^ 8 + fourth.toNat, by
    have := first.toNat_lt
    have := second.toNat_lt
    have := third.toNat_lt
    have := fourth.toNat_lt
    omega⟩

/-- Split a tunnel datagram into its flow and payload. -/
def decode : Bytes → Except DecodeError (FlowId × Bytes)
  | first :: second :: third :: fourth :: payload =>
      .ok (fromBeBytes first second third fourth, payload)
  | _ => .error .malformed

/-- Largest client payload a connection can carry now, or `none` when it cannot carry datagrams at
all. -/
def payloadLimit (maxDatagramSize : Option Nat) : Option Nat :=
  (maxDatagramSize.bind fun size =>
    if headerLen ≤ size then some (size - headerLen) else none).filter
    fun limit => 0 < limit

/-- A frame decodes to the flow and the unchanged payload it was built from. -/
@[simp] theorem decode_encode (flow : FlowId) (payload : Bytes) :
    decode (encode flow payload) = .ok (flow, payload) := by
  have bound := flow.isLt
  have sameFlow : fromBeBytes (UInt8.ofNat (flow.val / 2 ^ 24)) (UInt8.ofNat (flow.val / 2 ^ 16))
      (UInt8.ofNat (flow.val / 2 ^ 8)) (UInt8.ofNat flow.val) = flow := by
    apply Fin.ext
    simp only [fromBeBytes, UInt8.toNat_ofNat']
    omega
  simp only [encode, decode, sameFlow]

theorem length_encode (flow : FlowId) (payload : Bytes) :
    (encode flow payload).length = headerLen + payload.length :=
  Nat.add_comm payload.length headerLen

/-- The bytes of a flow that was read from bytes. -/
theorem encode_fromBeBytes (first second third fourth : UInt8) (payload : Bytes) :
    encode (fromBeBytes first second third fourth) payload =
      first :: second :: third :: fourth :: payload := by
  have firstLt := first.toNat_lt
  have secondLt := second.toNat_lt
  have thirdLt := third.toNat_lt
  have fourthLt := fourth.toNat_lt
  have byte : ∀ {value : Nat} {byte : UInt8}, value % 2 ^ 8 = byte.toNat →
      UInt8.ofNat value = byte := by
    intro value byte same
    apply UInt8.toNat.inj
    rw [UInt8.toNat_ofNat', same]
  show UInt8.ofNat _ :: UInt8.ofNat _ :: UInt8.ofNat _ :: UInt8.ofNat _ :: payload = _
  simp only [fromBeBytes]
  rw [@byte _ first (by omega), @byte _ second (by omega), @byte _ third (by omega),
    @byte _ fourth (by omega)]

/-- A datagram is too short for the header, or starts with its four bytes. -/
theorem short_or_header (datagram : Bytes) :
    (datagram.length < headerLen ∧ decode datagram = .error .malformed) ∨
      ∃ first second third fourth payload,
        datagram = first :: second :: third :: fourth :: payload := by
  obtain _ | ⟨first, _ | ⟨second, _ | ⟨third, _ | ⟨fourth, payload⟩⟩⟩⟩ := datagram
  · exact .inl ⟨by decide, rfl⟩
  · exact .inl ⟨Nat.le_of_ble_eq_true rfl, rfl⟩
  · exact .inl ⟨Nat.le_of_ble_eq_true rfl, rfl⟩
  · exact .inl ⟨Nat.le_of_ble_eq_true rfl, rfl⟩
  · exact .inr ⟨first, second, third, fourth, payload, rfl⟩

theorem decode_eq_error_iff (datagram : Bytes) :
    decode datagram = .error .malformed ↔ datagram.length < headerLen := by
  rcases short_or_header datagram with ⟨short, refused⟩ | ⟨_, _, _, _, payload, rfl⟩
  · exact ⟨fun _ => short, fun _ => refused⟩
  · refine ⟨nofun, fun short => absurd short ?_⟩
    simp [headerLen]

theorem decode_eq_ok_iff (datagram : Bytes) (flow : FlowId) (payload : Bytes) :
    decode datagram = .ok (flow, payload) ↔ encode flow payload = datagram := by
  constructor
  · intro decoded
    rcases short_or_header datagram with ⟨_, refused⟩ | ⟨first, second, third, fourth, rest, rfl⟩
    · rw [refused] at decoded
      cases decoded
    · obtain ⟨rfl, rfl⟩ := Prod.mk.inj (Except.ok.inj decoded)
      exact encode_fromBeBytes first second third fourth rest
  · rintro rfl
    exact decode_encode flow payload

theorem payloadLimit_eq_some (size : Option Nat) (limit : Nat) :
    payloadLimit size = some limit ↔ size = some (headerLen + limit) ∧ 0 < limit := by
  unfold payloadLimit
  rw [Option.filter_eq_some_iff, Option.bind_eq_some_iff, decide_eq_true_iff]
  refine and_congr_left fun positive => ⟨?_, ?_⟩
  · rintro ⟨size, rfl, fits⟩
    split at fits
    · rw [← Option.some.inj fits, Nat.add_sub_cancel' ‹_›]
    · cases fits
  · rintro rfl
    exact ⟨_, rfl, by rw [if_pos (Nat.le_add_right _ _), Nat.add_sub_cancel_left]⟩

/-- **The frame codec and its size limit.** Frames and the datagrams that are not too short are the
same, and a limit is the length of the longest payload whose frame is within the maximum. -/
theorem frame_codec :
    (∀ flow payload, decode (encode flow payload) = .ok (flow, payload)) ∧
    (∀ datagram, decode datagram = .error .malformed ↔ datagram.length < headerLen) ∧
    (∀ datagram flow payload,
      decode datagram = .ok (flow, payload) ↔ encode flow payload = datagram) ∧
    ∀ maxDatagramSize,
      ((payloadLimit maxDatagramSize).isSome ↔ ∃ size flow payload,
        maxDatagramSize = some size ∧ payload ≠ [] ∧ (encode flow payload).length ≤ size) ∧
      ∀ limit, payloadLimit maxDatagramSize = some limit →
        ∃ size, maxDatagramSize = some size ∧
          ∀ flow payload, payload.length ≤ limit ↔ (encode flow payload).length ≤ size := by
  refine ⟨decode_encode, decode_eq_error_iff, decode_eq_ok_iff, fun maxDatagramSize => ⟨?_, ?_⟩⟩
  · rw [Option.isSome_iff_exists]
    constructor
    · rintro ⟨limit, limited⟩
      obtain ⟨rfl, positive⟩ := (payloadLimit_eq_some _ _).mp limited
      refine ⟨_, 0, [0], rfl, List.cons_ne_nil _ _, ?_⟩
      rw [length_encode, List.length_singleton]
      omega
    · rintro ⟨size, flow, payload, rfl, nonempty, fits⟩
      have positive := List.length_pos_iff.mpr nonempty
      rw [length_encode] at fits
      refine ⟨size - headerLen, (payloadLimit_eq_some _ _).mpr ⟨?_, by omega⟩⟩
      rw [Nat.add_sub_cancel' (by omega)]
  · intro limit limited
    obtain ⟨rfl, _⟩ := (payloadLimit_eq_some _ _).mp limited
    refine ⟨_, rfl, fun flow payload => ?_⟩
    rw [length_encode, Nat.add_le_add_iff_left]

end IrohTunnel.Udp
