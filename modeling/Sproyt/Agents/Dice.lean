import Mathlib.Algebra.BigOperators.Fin
import Mathlib.Data.Fintype.BigOperators
import Mathlib.Data.Int.CardIntervalMod
import Mathlib.Order.Interval.Finset.Fin

/-!
# Die rolls of the chat agents

`unbiased_die` of `chatbot/tools.rs` draws 64-bit words until one is at least
`2 ^ 64 mod n` and answers with the residue of that word.  The words are elements of
`Fin (2 ^ 64)`, whose negation wraps around as the source's does, and the random source is the
sequence of its answers.  The main result counts words and sequences of words: no face of the die
is more frequent than another.
-/

namespace Sproyt

open Finset

abbrev Word := Fin (2 ^ 64)

/-- `MAX_DIE_SIDES`. -/
def maxDieSides : Nat := 10000

inductive DieError where
  | modelInvalidTool
  | randomUnavailable
  deriving DecidableEq

/-- `n.wrapping_neg() % n`. -/
def threshold (n : Word) : Word := -n % n

/-- The answer for an accepted word, `(value % n) as u32 + 1`. -/
def face (n value : Word) : Nat := (value % n).val % 2 ^ 32 + 1

/-- The loop of `unbiased_die` with `tries` rounds left, the next one asking the source for the
`i`th time. -/
def dieLoop (next : Nat → Except DieError Word) (n : Word) : Nat → Nat → Except DieError Nat
  | 0, _ => .error .randomUnavailable
  | tries + 1, i => do
    let value ← next i
    if threshold n ≤ value then return face n value
    dieLoop next n tries (i + 1)

/-- The rounds of `unbiased_die`. -/
def drawLimit : Nat := 128

def unbiasedDie (next : Nat → Except DieError Word) (sides : Nat) : Except DieError Nat :=
  if 1 ≤ sides ∧ sides ≤ maxDieSides then dieLoop next (Fin.ofNat _ sides) drawLimit 0
  else .error .modelInvalidTool

/-- A source that yields the given words and then fails. -/
def drawn {k : Nat} (words : Fin k → Word) (i : Nat) : Except DieError Word :=
  if h : i < k then .ok (words ⟨i, h⟩) else .error .randomUnavailable

/-- The last word of the sequence is its first accepted one. -/
def FirstAccepted {k : Nat} (n : Word) (words : Fin (k + 1) → Word) : Prop :=
  (∀ i : Fin k, words i.castSucc < threshold n) ∧ threshold n ≤ words (Fin.last k)

instance {k : Nat} (n : Word) (words : Fin (k + 1) → Word) : Decidable (FirstAccepted n words) :=
  inferInstanceAs (Decidable (_ ∧ _))

/-! ### Counting words -/

section Words

variable {n : Word}

theorem threshold_val (hn : 0 < n.val) : (threshold n).val = 2 ^ 64 % n.val := by
  have hlt := n.isLt
  have hneg : (2 ^ 64 - n.val) % 2 ^ 64 = 2 ^ 64 - n.val := Nat.mod_eq_of_lt (by omega)
  rw [threshold, Fin.mod_val, Fin.neg_def]
  show (2 ^ 64 - n.val) % 2 ^ 64 % n.val = _
  rw [hneg, ← Nat.add_mod_right (2 ^ 64 - n.val), Nat.sub_add_cancel hlt.le]

theorem face_eq (hn : 0 < n.val) (hmax : n.val ≤ maxDieSides) (value : Word) :
    face n value = value.val % n.val + 1 := by
  have hlt := Nat.mod_lt value.val hn
  have hmax : n.val ≤ 10000 := hmax
  rw [face, Fin.mod_val, Nat.mod_eq_of_lt (by omega)]

theorem card_filter_val (m : Nat) (p : Nat → Prop) [DecidablePred p] :
    #{v : Fin m | p v.val} = m.count p := by
  rw [Nat.count_eq_card_filter_range, ← Nat.Iio_eq_range, ← Fin.map_valEmbedding_univ,
    filter_map, card_map]
  rfl

theorem count_from {T m : Nat} (hT : T ≤ m) (p : Nat → Prop) [DecidablePred p] :
    m.count (fun v => T ≤ v ∧ p v) + T.count p = m.count p := by
  obtain ⟨d, rfl⟩ := Nat.exists_eq_add_of_le hT
  have hbelow : T.count (fun v => T ≤ v ∧ p v) = 0 := by
    rw [Nat.count_eq_card_filter_range, card_eq_zero, filter_eq_empty_iff]
    intro v hv h
    have := mem_range.1 hv
    omega
  rw [Nat.count_add, Nat.count_add, hbelow]
  simp only [Nat.le_add_right, true_and]
  omega

/-- Below the threshold lie exactly the residues that occur once more than the others. -/
theorem card_accepted (hn : 0 < n.val) (hmax : n.val ≤ maxDieSides) {f : Nat}
    (hf : f ∈ Icc 1 n.val) : #{v | threshold n ≤ v ∧ face n v = f} = 2 ^ 64 / n.val := by
  obtain ⟨hpos, hle⟩ := mem_Icc.1 hf
  have hT : (threshold n).val = 2 ^ 64 % n.val := threshold_val hn
  have hTlt : (threshold n).val < n.val := hT ▸ Nat.mod_lt _ hn
  have hface : ∀ v : Word, threshold n ≤ v ∧ face n v = f ↔
      (threshold n).val ≤ v.val ∧ v.val ≡ f - 1 [MOD n.val] := by
    intro v
    rw [face_eq hn hmax, Nat.ModEq, Nat.mod_eq_of_lt (by omega : f - 1 < n.val)]
    constructor
    · exact fun ⟨h, hv⟩ => ⟨h, by omega⟩
    · exact fun ⟨h, hv⟩ => ⟨h, by omega⟩
  have hcount := count_from (threshold n).isLt.le (· ≡ f - 1 [MOD n.val])
  rw [Nat.count_modEq_card _ hn, Nat.count_modEq_card _ hn, Nat.div_eq_of_lt hTlt,
    Nat.mod_eq_of_lt hTlt, ← hT] at hcount
  rw [filter_congr fun v _ => hface v,
    card_filter_val _ fun v => (threshold n).val ≤ v ∧ v ≡ f - 1 [MOD n.val]]
  omega

end Words

/-! ### The loop -/

section Loop

variable {next : Nat → Except DieError Word} {n value : Word} {tries i : Nat}

theorem dieLoop_accept (hnext : next i = .ok value) (haccept : threshold n ≤ value) :
    dieLoop next n (tries + 1) i = .ok (face n value) := by
  simp only [dieLoop, hnext, bind, Except.bind, if_pos haccept]
  rfl

theorem dieLoop_reject (hnext : next i = .ok value) (hreject : value < threshold n) :
    dieLoop next n (tries + 1) i = dieLoop next n tries (i + 1) := by
  simp only [dieLoop, hnext, bind, Except.bind, if_neg (not_le.2 hreject)]

/-- The loop answers with the face of the first accepted word, as long as a round is left for it. -/
theorem dieLoop_of_firstAccepted {k : Nat} {words : Fin (k + 1) → Word}
    (h : FirstAccepted n words) (hi : i ≤ k) (htries : k < i + tries) :
    dieLoop (drawn words) n tries i = .ok (face n (words (Fin.last k))) := by
  induction tries generalizing i with
  | zero => omega
  | succ tries ih =>
    have hdrawn : drawn words i = .ok (words ⟨i, by omega⟩) := dif_pos (by omega)
    by_cases hlast : i = k
    · subst hlast
      exact dieLoop_accept hdrawn h.2
    · rw [dieLoop_reject hdrawn (h.1 ⟨i, by omega⟩)]
      exact ih (by omega) (by omega)

end Loop

/-- Rolling a die with at most `MAX_DIE_SIDES` sides: the words below `2 ^ 64 mod n` are
rejected, each face has equally many accepted words, and so has equally many sequences of words
whose last word is the first accepted one. -/
theorem unbiased_die_uniform {sides : Nat} (hlo : 1 ≤ sides) (hhi : sides ≤ maxDieSides) :
    let n : Word := Fin.ofNat _ sides
    (threshold n).val = 2 ^ 64 % sides ∧
    (∀ next value, next 0 = .ok value → threshold n ≤ value →
      unbiasedDie next sides = .ok (face n value) ∧ face n value ∈ Icc 1 sides) ∧
    (∀ f ∈ Icc 1 sides, #{v | threshold n ≤ v ∧ face n v = f} = 2 ^ 64 / sides) ∧
    ∀ k < drawLimit, ∀ f ∈ Icc 1 sides,
      #{words : Fin (k + 1) → Word |
          FirstAccepted n words ∧ unbiasedDie (drawn words) sides = .ok f} =
        (2 ^ 64 % sides) ^ k * (2 ^ 64 / sides) := by
  intro n
  have hval : n.val = sides := Nat.mod_eq_of_lt (by have : sides ≤ 10000 := hhi; omega)
  have hn : 0 < n.val := by omega
  have hmax : n.val ≤ maxDieSides := by omega
  have hdie : ∀ next, unbiasedDie next sides = dieLoop next n drawLimit 0 :=
    fun next => if_pos ⟨hlo, hhi⟩
  refine ⟨?_, ?_, ?_, ?_⟩
  · rw [threshold_val hn, hval]
  · intro next value hnext haccept
    refine ⟨(hdie next).trans (dieLoop_accept hnext haccept), ?_⟩
    have := Nat.mod_lt value.val hn
    rw [face_eq hn hmax, mem_Icc]
    omega
  · intro f hf
    rw [card_accepted hn hmax (hval ▸ hf), hval]
  · intro k hk f hf
    -- the sequences are the product of `k` times the rejected words and the accepted ones
    have hset : ({words | FirstAccepted n words ∧ unbiasedDie (drawn words) sides = .ok f} :
          Finset (Fin (k + 1) → Word)) = Fintype.piFinset (@Fin.snoc k (fun _ => Finset Word)
            (fun _ => Iio (threshold n)) {v | threshold n ≤ v ∧ face n v = f}) := by
      ext words
      rw [mem_filter, Fintype.mem_piFinset, Fin.forall_fin_succ']
      simp only [mem_univ, true_and, Fin.snoc_castSucc, Fin.snoc_last, mem_Iio, mem_filter]
      constructor
      · rintro ⟨h, hroll⟩
        rw [hdie, dieLoop_of_firstAccepted h (Nat.zero_le k) (by omega)] at hroll
        exact ⟨h.1, h.2, Except.ok.inj hroll⟩
      · rintro ⟨hbefore, haccept, hface⟩
        refine ⟨⟨hbefore, haccept⟩, ?_⟩
        rw [hdie, dieLoop_of_firstAccepted ⟨hbefore, haccept⟩ (Nat.zero_le k) (by omega), hface]
    rw [hset, Fintype.card_piFinset, Fin.prod_univ_castSucc]
    simp only [Fin.snoc_castSucc, Fin.snoc_last, prod_const, card_univ, Fintype.card_fin,
      Fin.card_Iio]
    rw [card_accepted hn hmax (hval ▸ hf), threshold_val hn, hval]

theorem six_sided_die_uniform : 1 ≤ 6 ∧ 6 ≤ maxDieSides ∧ (threshold 6).val = 4 := by
  refine ⟨by decide, by decide, ?_⟩
  exact (unbiased_die_uniform (by decide) (by decide)).1

end Sproyt
