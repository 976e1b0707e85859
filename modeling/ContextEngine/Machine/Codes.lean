/-
  ContextEngine.Machine.Codes — codes whose words can be told apart inside a longer text.

  `enc` is a prefix code on the values with `P` when a text that starts with the word of one
  value starts with the word of no other. Words of a prefix code can be concatenated without a
  separator and without a count, and the sequence is read back from the text; with a count, or
  with one known in advance, so is what follows it.
-/

import Mathlib

namespace ContextEngine.Machine

variable {α β γ : Type}

/-- The word of one value is not the start of another's. -/
def PrefixCode (P : α → Prop) (enc : α → List β) : Prop :=
  ∀ a b x y, P a → P b → enc a ++ x = enc b ++ y → a = b ∧ x = y

namespace PrefixCode

variable {P : α → Prop} {enc : α → List β}

theorem injective (h : PrefixCode P enc) {a b : α} (ha : P a) (hb : P b) (heq : enc a = enc b) : a = b :=
  (h a b [] [] ha hb (by rw [heq])).1

/-- Words of one length need only be different. -/
theorem of_length {n : Nat} (hlen : ∀ a, P a → (enc a).length = n) (hinj : ∀ a b, P a → P b → enc a = enc b → a = b) :
    PrefixCode P enc := by
  intro a b x y ha hb h
  obtain ⟨hab, hxy⟩ := List.append_inj h ((hlen a ha).trans (hlen b hb).symm)
  exact ⟨hinj a b ha hb hab, hxy⟩

/-- A function that tells the values apart may be applied first. -/
theorem comp {Q : γ → Prop} {f : γ → α} (h : PrefixCode P enc) (hf : ∀ c, Q c → P (f c))
    (hinj : ∀ c d, Q c → Q d → f c = f d → c = d) : PrefixCode Q fun c => enc (f c) := by
  intro c d x y hc hd heq
  obtain ⟨hfd, hxy⟩ := h (f c) (f d) x y (hf c hc) (hf d hd) heq
  exact ⟨hinj c d hc hd hfd, hxy⟩

/-- Two words after each other. -/
theorem prod {Q : γ → Prop} {enc' : γ → List β} (h : PrefixCode P enc) (h' : PrefixCode Q enc') :
    PrefixCode (fun p : α × γ => P p.1 ∧ Q p.2) fun p => enc p.1 ++ enc' p.2 := by
  rintro ⟨a, c⟩ ⟨b, d⟩ x y ⟨ha, hc⟩ ⟨hb, hd⟩ heq
  rw [List.append_assoc, List.append_assoc] at heq
  obtain ⟨rfl, hrest⟩ := h a b _ _ ha hb heq
  obtain ⟨rfl, hxy⟩ := h' c d x y hc hd hrest
  exact ⟨rfl, hxy⟩

/-- A sequence whose length is known ends where it ends. -/
theorem flatMap_append (h : PrefixCode P enc) {as bs : List α} {x y : List β} (ha : ∀ a ∈ as, P a) (hb : ∀ b ∈ bs, P b)
    (hlen : as.length = bs.length) (heq : as.flatMap enc ++ x = bs.flatMap enc ++ y) : as = bs ∧ x = y := by
  induction as generalizing bs with
  | nil =>
    obtain rfl : bs = [] := List.length_eq_zero_iff.mp hlen.symm
    exact ⟨rfl, heq⟩
  | cons a as ih =>
    cases bs with
    | nil => cases hlen
    | cons b bs =>
      rw [List.flatMap_cons, List.flatMap_cons, List.append_assoc, List.append_assoc] at heq
      obtain ⟨rfl, hrest⟩ := h a b _ _ (ha a List.mem_cons_self) (hb b List.mem_cons_self) heq
      obtain ⟨rfl, hxy⟩ := ih (fun c hc => ha c (List.mem_cons_of_mem a hc)) (fun c hc => hb c (List.mem_cons_of_mem a hc))
        (Nat.succ.inj hlen) hrest
      exact ⟨rfl, hxy⟩

/-- A sequence is read back from the whole text. -/
theorem flatMap_injective (h : PrefixCode P enc) (hne : ∀ a, P a → enc a ≠ []) {as bs : List α} (ha : ∀ a ∈ as, P a)
    (hb : ∀ b ∈ bs, P b) (heq : as.flatMap enc = bs.flatMap enc) : as = bs := by
  induction as generalizing bs with
  | nil =>
    cases bs with
    | nil => rfl
    | cons b bs =>
      rw [List.flatMap_nil, List.flatMap_cons] at heq
      exact absurd (List.append_eq_nil_iff.mp heq.symm).1 (hne b (hb b List.mem_cons_self))
  | cons a as ih =>
    cases bs with
    | nil =>
      rw [List.flatMap_nil, List.flatMap_cons] at heq
      exact absurd (List.append_eq_nil_iff.mp heq).1 (hne a (ha a List.mem_cons_self))
    | cons b bs =>
      rw [List.flatMap_cons, List.flatMap_cons] at heq
      obtain ⟨rfl, hrest⟩ := h a b _ _ (ha a List.mem_cons_self) (hb b List.mem_cons_self) heq
      rw [ih (fun c hc => ha c (List.mem_cons_of_mem a hc)) (fun c hc => hb c (List.mem_cons_of_mem a hc)) hrest]

end PrefixCode

/-! ## Numbers in a fixed number of octets -/

/-- `n` in `k` octets, the most significant first. -/
def bigEndian : Nat → Nat → List UInt8
  | 0, _ => []
  | k + 1, n => bigEndian k (n / 256) ++ [UInt8.ofNat n]

@[simp] theorem length_bigEndian (k n : Nat) : (bigEndian k n).length = k := by
  induction k generalizing n with
  | zero => rfl
  | succ k ih => rw [bigEndian, List.length_append, ih, List.length_singleton]

theorem bigEndian_injective (k : Nat) {n m : Nat} (hn : n < 256 ^ k) (hm : m < 256 ^ k) (h : bigEndian k n = bigEndian k m) :
    n = m := by
  induction k generalizing n m with
  | zero => omega
  | succ k ih =>
    rw [bigEndian, bigEndian] at h
    obtain ⟨hhigh, hlow⟩ := List.append_inj h (by rw [length_bigEndian, length_bigEndian])
    rw [Nat.pow_succ] at hn hm
    have hdiv : n / 256 = m / 256 := ih (by omega) (by omega) hhigh
    have hmod : n % 256 = m % 256 := by
      have := congrArg UInt8.toNat (List.singleton_inj.mp hlow)
      rwa [UInt8.toNat_ofNat', UInt8.toNat_ofNat'] at this
    omega

theorem bigEndian_prefixCode (k : Nat) : PrefixCode (· < 256 ^ k) (bigEndian k) :=
  .of_length (fun n _ => length_bigEndian k n) fun _ _ hn hm h => bigEndian_injective k hn hm h

/-- Octets after their number, in `k` octets. -/
theorem framed_prefixCode (k : Nat) : PrefixCode (fun b : List UInt8 => b.length < 256 ^ k) fun b => bigEndian k b.length ++ b := by
  intro a b x y ha hb h
  rw [List.append_assoc, List.append_assoc] at h
  obtain ⟨hlen, hrest⟩ := bigEndian_prefixCode k _ _ _ _ ha hb h
  exact List.append_inj hrest hlen

end ContextEngine.Machine
