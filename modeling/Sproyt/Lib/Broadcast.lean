import Mathlib.Data.List.Basic

/-!
# Bounded broadcast

A ring keeps the last events that were sent, up to its capacity, and counts all of them. A
receiver is a position in that count: it takes the event at its position, or is told how many
events it has missed and goes on at the oldest one that is kept.
-/

theorem List.concat_eq_append_cons {α : Type} {xs before after : List α} {x y : α}
    (h : xs ++ [x] = before ++ y :: after) :
    (∃ rest, after = rest ++ [x] ∧ xs = before ++ y :: rest) ∨
      (after = [] ∧ xs = before ∧ x = y) := by
  rcases eq_nil_or_concat' after with rfl | ⟨rest, z, rfl⟩
  · obtain ⟨rfl, hx⟩ := append_inj' h rfl
    exact .inr ⟨rfl, rfl, (List.cons.inj hx).1⟩
  · rw [← cons_append, ← append_assoc] at h
    obtain ⟨hxs, hx⟩ := append_inj' h rfl
    exact .inl ⟨rest, by rw [(List.cons.inj hx).1], hxs⟩

structure EventRing (ε : Type) (capacity : Nat) where
  buffer : List ε
  tail : Nat
  length_eq : buffer.length = min tail capacity

inductive Received (ε : Type)
  | event (e : ε)
  | lagged (skipped : Nat)
  | empty

namespace EventRing

open List

variable {ε : Type} {capacity : Nat}

def new (ε : Type) (capacity : Nat) : EventRing ε capacity := ⟨[], 0, (Nat.zero_min capacity).symm⟩

def send (r : EventRing ε capacity) (e : ε) : EventRing ε capacity where
  buffer := (r.buffer ++ [e]).drop (r.buffer.length + 1 - capacity)
  tail := r.tail + 1
  length_eq := by
    have h := r.length_eq
    rw [length_drop, length_append, length_singleton]
    omega

def head (r : EventRing ε capacity) : Nat := r.tail - r.buffer.length

def recv (r : EventRing ε capacity) (next : Nat) : Received ε × Nat :=
  if next < r.head then (.lagged (r.head - next), r.head)
  else match r.buffer[next - r.head]? with
    | some e => (.event e, next + 1)
    | none => (.empty, next)

def unread (r : EventRing ε capacity) (next : Nat) : List ε := r.buffer.drop (next - r.head)

variable {r : EventRing ε capacity} {e : ε} {next : Nat}

theorem head_eq : r.head = r.tail - capacity := by
  have h := r.length_eq
  unfold head
  omega

theorem head_add_length (r : EventRing ε capacity) : r.head + r.buffer.length = r.tail := by
  have h := r.length_eq
  unfold head
  omega

theorem unread_tail (r : EventRing ε capacity) : r.unread r.tail = [] := by
  have h := r.head_add_length
  apply drop_eq_nil_of_le
  omega

theorem unread_send (hnext : next ≤ r.tail) (hkept : (r.send e).head ≤ next) :
    (r.send e).unread next = r.unread next ++ [e] := by
  have hlength := r.length_eq
  have hhead := r.head_add_length
  have hhead' := (r.send e).head_add_length
  have hlength' := (r.send e).length_eq
  have hdrop : r.buffer.length + 1 - capacity + (next - (r.send e).head) = next - r.head := by
    rw [show (r.send e).tail = r.tail + 1 from rfl] at hhead' hlength'
    omega
  calc (r.send e).unread next
      = (r.buffer ++ [e]).drop (r.buffer.length + 1 - capacity + (next - (r.send e).head)) :=
        drop_drop
    _ = (r.buffer ++ [e]).drop (next - r.head) := by rw [hdrop]
    _ = r.unread next ++ [e] := drop_append_of_le_length (by omega)

theorem mem_send {x : ε} (h : x ∈ (r.send e).buffer) : x ∈ r.buffer ∨ x = e :=
  (mem_append.1 (mem_of_mem_drop h)).imp_right mem_singleton.1

theorem head_le_send (r : EventRing ε capacity) (e : ε) : r.head ≤ (r.send e).head := by
  rw [head_eq, head_eq]
  exact Nat.sub_le_sub_right (Nat.le_succ _) _

variable {next' skipped : Nat}

theorem recv_event (h : r.recv next = (.event e, next')) :
    r.head ≤ next ∧ next < r.tail ∧ next' = next + 1 ∧
      r.unread next = e :: r.unread (next + 1) := by
  have hhead := r.head_add_length
  unfold recv at h
  split at h
  · cases h
  · next hkept =>
    split at h
    · next e' he =>
      cases h
      obtain ⟨hlt, rfl⟩ := List.getElem?_eq_some_iff.1 he
      refine ⟨by omega, by omega, rfl, ?_⟩
      rw [unread, unread, drop_eq_getElem_cons hlt]
      congr 2
      omega
    · cases h

theorem recv_lagged (h : r.recv next = (.lagged skipped, next')) :
    next < r.head ∧ next' = r.head ∧ skipped = r.head - next := by
  unfold recv at h
  split at h
  · next hmissed =>
    cases h
    exact ⟨hmissed, rfl, rfl⟩
  · split at h <;> cases h

end EventRing
