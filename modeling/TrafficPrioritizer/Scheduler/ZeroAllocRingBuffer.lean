import Mathlib.Data.List.TakeDrop
import TrafficPrioritizer.Lib.Ring

/-! The shaper's packet queue: a ring of fixed slots with separate head, tail and
count. A slot keeps the bytes of earlier packets behind the size of its own. -/

namespace Hpgtp
open Function

structure PacketSlot where
  size : UInt16
  payload : List UInt8
  length_payload : payload.length = 2048
  deriving DecidableEq

namespace PacketSlot

def zero : PacketSlot := ⟨0, List.replicate 2048 0, List.length_replicate ..⟩

def view (s : PacketSlot) : List UInt8 := s.payload.take s.size.toNat

def store (s : PacketSlot) (pkt : List UInt8) (h : pkt.length ≤ 2048) : PacketSlot where
  size := UInt16.ofNat pkt.length
  payload := pkt ++ s.payload.drop pkt.length
  length_payload := by
    rw [List.length_append, List.length_drop, s.length_payload]
    omega

@[simp] theorem view_store (s : PacketSlot) {pkt : List UInt8} (h : pkt.length ≤ 2048) :
    (s.store pkt h).view = pkt := by
  show (pkt ++ s.payload.drop pkt.length).take (UInt16.ofNat pkt.length).toNat = pkt
  rw [UInt16.toNat_ofNat_of_lt' (by simp [UInt16.size]; omega), List.take_left]

theorem length_view_le (s : PacketSlot) : s.view.length ≤ 2048 := by
  rw [view, List.length_take, s.length_payload]
  exact Nat.min_le_right ..

end PacketSlot

/-- The tail is kept as a separate index; it always stands `count` places after the head. -/
structure ZeroAllocRingBuffer (Capacity : ℕ) where
  pool : Fin Capacity → PacketSlot
  head : Fin Capacity
  tail : Fin Capacity
  count : ℕ
  tail_eq : tail = Ring.advance head count
  count_le : count ≤ Capacity

namespace ZeroAllocRingBuffer
variable {Capacity : ℕ}

def new [NeZero Capacity] (pool : Fin Capacity → PacketSlot) : ZeroAllocRingBuffer Capacity :=
  ⟨pool, 0, 0, 0, (Ring.advance_zero 0).symm, Nat.zero_le _⟩

def push (r : ZeroAllocRingBuffer Capacity) (pkt : List UInt8) :
    Option (ZeroAllocRingBuffer Capacity) :=
  if h : r.count = Capacity ∨ 2048 < pkt.length then none
  else some {
    pool := update r.pool r.tail ((r.pool r.tail).store pkt (by omega))
    head := r.head
    tail := Ring.advance r.tail 1
    count := r.count + 1
    tail_eq := by rw [r.tail_eq, Ring.advance_advance]
    count_le := by have := r.count_le; omega }

def front (r : ZeroAllocRingBuffer Capacity) : List UInt8 :=
  if r.count = 0 then [] else (r.pool r.head).view

def pop (r : ZeroAllocRingBuffer Capacity) : ZeroAllocRingBuffer Capacity :=
  if h : 0 < r.count then {
    r with
    head := Ring.advance r.head 1
    count := r.count - 1
    tail_eq := by
      rw [r.tail_eq, Ring.advance_advance]
      congr 1
      omega
    count_le := by have := r.count_le; omega }
  else r

def empty (r : ZeroAllocRingBuffer Capacity) : Bool := r.count == 0

def packets (r : ZeroAllocRingBuffer Capacity) : List (List UInt8) :=
  (Ring.items r.pool r.head r.count).map fun p => p.2.view

@[simp] theorem length_packets (r : ZeroAllocRingBuffer Capacity) :
    r.packets.length = r.count := by
  rw [packets, List.length_map, Ring.length_items]

theorem empty_iff {r : ZeroAllocRingBuffer Capacity} : r.empty = true ↔ r.packets = [] := by
  rw [← List.length_eq_zero_iff, length_packets, empty, beq_iff_eq]

theorem push_eq_none_iff {r : ZeroAllocRingBuffer Capacity} {pkt : List UInt8} :
    r.push pkt = none ↔ r.packets.length = Capacity ∨ 2048 < pkt.length := by
  rw [length_packets, push]
  split_ifs with h
  · simp [h]
  · simp [h]

theorem packets_push {r r' : ZeroAllocRingBuffer Capacity} {pkt : List UInt8}
    (h : r.push pkt = some r') :
    r.packets.length < Capacity ∧ pkt.length ≤ 2048 ∧ r'.packets = r.packets ++ [pkt] := by
  unfold push at h
  split_ifs at h with hfull
  obtain rfl := Option.some.inj h
  have hcount : r.count < Capacity := by have := r.count_le; omega
  refine ⟨by rwa [length_packets], by omega, ?_⟩
  show (Ring.items (update r.pool r.tail _) r.head (r.count + 1)).map _ = _
  rw [r.tail_eq, Ring.items_push r.pool r.head hcount, List.map_append, List.map_singleton,
    PacketSlot.view_store]
  rfl

theorem packets_eq_cons {r : ZeroAllocRingBuffer Capacity} (h : r.empty = false) :
    r.packets = r.front :: r.pop.packets := by
  have hne : r.count ≠ 0 := by simpa [empty] using h
  have hpos : 0 < r.count := Nat.pos_of_ne_zero hne
  have hpop : r.pop.packets = (Ring.items r.pool (Ring.advance r.head 1) (r.count - 1)).map
      fun p => p.2.view := by
    rw [pop, dif_pos hpos]
    rfl
  rw [hpop, packets, front, if_neg hne]
  conv_lhs => rw [← Nat.sub_add_cancel hpos, Ring.items, List.map_cons]

theorem length_front_le (r : ZeroAllocRingBuffer Capacity) : r.front.length ≤ 2048 := by
  rw [front]
  split_ifs
  · exact Nat.zero_le _
  · exact PacketSlot.length_view_le _

end ZeroAllocRingBuffer
end Hpgtp
