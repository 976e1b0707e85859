/-
  ContextEngine.Learning.ThresholdsProofs — when loading thresholds refuses with ValueError
  only, agrees with the constructor, and does not depend on the order of the floors.

  A checked value and its reading determine each other (`equals_iff_pendingOrScore`, up to
  `equals_iff_readSnapshot`), so the loader compares floors in their listed order and the
  constructor compares the same event with the sorted ones.

  Proved (`loadsSoundly_iff`): a document loads soundly exactly if no field that is read has
  no hash or no float, and no calibration event passes for the active values: the order that
  binds the event is refused by the constructor unless it happens to be the sorted one.
-/

import ContextEngine.Learning.Thresholds
import ContextEngine.Python.Raising

namespace ContextEngine.Learning.Thresholds

open ContextEngine.Python Decoded

/-! ## Refusals -/

section Refusals

variable {α β : Type}

/-- It raises nothing but ValueError. -/
def Clean (x : Except Raised α) : Prop := ∀ e, x = .error e → ∃ message, e = .valueError message

theorem clean_ok (a : α) : Clean (.ok a : Except Raised α) := by
  intro e he
  cases he

theorem clean_valueError (message : String) : Clean (.error (.valueError message) : Except Raised α) := by
  intro e he
  exact ⟨message, (Except.error.inj he).symm⟩

theorem Clean.bind {x : Except Raised α} {f : α → Except Raised β} (hx : Clean x) (hf : ∀ a, x = .ok a → Clean (f a)) :
    Clean (x >>= f) := by
  cases x with
  | error e =>
    intro e' he'
    exact hx e' (congrArg Except.error (Except.error.inj he'))
  | ok a => exact hf a rfl

/-- A loop over the items returns what each of them returns. -/
theorem mapM_ofFn_ok {n : Nat} {items : Fin n → α} {f : α → Except Raised β} {bs : List β} :
    (List.ofFn items).mapM f = .ok bs ↔ ∃ g : Fin n → β, (∀ i, f (items i) = .ok (g i)) ∧ bs = List.ofFn g := by
  induction n generalizing bs with
  | zero =>
    simp only [List.ofFn_zero, List.mapM_nil]
    constructor
    · intro h
      exact ⟨Fin.elim0, fun i => i.elim0, (Except.ok.inj h).symm⟩
    · rintro ⟨_, -, rfl⟩
      rfl
  | succ n ih =>
    simp only [List.ofFn_succ, List.mapM_cons, bind_ok]
    constructor
    · rintro ⟨b, hb, bs', hbs', h⟩
      obtain ⟨g, hg, rfl⟩ := ih.mp hbs'
      refine ⟨Fin.cons b g, Fin.cases hb hg, ?_⟩
      simpa using (Except.ok.inj h).symm
    · rintro ⟨g, hg, rfl⟩
      exact ⟨g 0, hg 0, _, ih.mpr ⟨fun i => g i.succ, fun i => hg i.succ, rfl⟩, rfl⟩

/-- Where the loop raises, an item does. -/
theorem mapM_error {xs : List α} {f : α → Except Raised β} {e : Raised} (h : xs.mapM f = .error e) :
    ∃ x ∈ xs, f x = .error e := by
  induction xs with
  | nil => cases h
  | cons x xs ih =>
    rw [List.mapM_cons] at h
    cases hx : f x with
    | error e' =>
      rw [hx] at h
      exact ⟨x, List.mem_cons_self, hx.trans (congrArg Except.error (Except.error.inj h))⟩
    | ok b =>
      rw [hx] at h
      cases hxs : xs.mapM f with
      | error e' =>
        obtain ⟨y, hy, hf⟩ := ih (by rw [hxs] at h ⊢; exact h)
        exact ⟨y, List.mem_cons_of_mem _ hy, hf⟩
      | ok bs =>
        rw [hxs] at h
        cases h

theorem Clean.mapM {xs : List α} {f : α → Except Raised β} (h : ∀ x ∈ xs, Clean (f x)) : Clean (xs.mapM f) := by
  intro e he
  obtain ⟨x, hx, hf⟩ := mapM_error he
  exact h x hx e hf

theorem not_clean_bind {x : Except Raised α} {f : α → Except Raised β} (h : ¬Clean x) : ¬Clean (x >>= f) := by
  cases x with
  | ok a => exact absurd (clean_ok a) h
  | error e =>
    intro hclean
    exact h fun e' he' => hclean e' (by cases he'; rfl)

theorem not_clean_bind_iff {x : Except Raised α} {f : α → Except Raised β} :
    ¬Clean (x >>= f) ↔ ¬Clean x ∨ ∃ a, x = .ok a ∧ ¬Clean (f a) := by
  constructor
  · intro h
    by_contra hnone
    simp only [not_or, not_exists, not_and, not_not] at hnone
    exact h (hnone.1.bind hnone.2)
  · rintro (h | ⟨a, rfl, h⟩)
    · exact not_clean_bind h
    · exact h

/-- A loop raises where its first item does that is no value. -/
theorem not_clean_mapM_ofFn {n : Nat} {items : Fin n → α} {f : α → Except Raised β} :
    ¬Clean ((List.ofFn items).mapM f) ↔ ∃ i, (∀ j < i, ∃ b, f (items j) = .ok b) ∧ ¬Clean (f (items i)) := by
  induction n with
  | zero =>
    simp only [List.ofFn_zero, List.mapM_nil, IsEmpty.exists_iff, iff_false, not_not]
    exact clean_ok _
  | succ n ih =>
    have htail (b : β) : ¬Clean ((List.ofFn fun i => items i.succ).mapM f >>= fun bs => pure (b :: bs)) ↔
        ∃ i : Fin n, (∀ j < i, ∃ b, f (items j.succ) = .ok b) ∧ ¬Clean (f (items i.succ)) := by
      rw [not_clean_bind_iff, ih, or_iff_left]
      rintro ⟨bs, -, h⟩
      exact h (clean_ok _)
    rw [List.ofFn_succ, List.mapM_cons, not_clean_bind_iff]
    simp only [htail]
    constructor
    · rintro (h | ⟨b, hb, i, hbefore, h⟩)
      · exact ⟨0, fun j hj => absurd hj (Fin.not_lt_zero j), h⟩
      · refine ⟨i.succ, fun j hj => ?_, h⟩
        induction j using Fin.cases with
        | zero => exact ⟨b, hb⟩
        | succ j => exact hbefore j (Fin.succ_lt_succ_iff.mp hj)
    · rintro ⟨i, hbefore, h⟩
      induction i using Fin.cases with
      | zero => exact .inl h
      | succ i =>
        obtain ⟨b, hb⟩ := hbefore 0 (Fin.succ_pos i)
        exact .inr ⟨b, hb, i, fun j hj => hbefore j.succ (Fin.succ_lt_succ_iff.mpr hj), h⟩

end Refusals

/-! ## Objects -/

section Objects

variable {value value' : Decoded} {name name' : String} {fields : List String} {d d' : Members}

theorem object_ok : object value name fields = .ok d ↔
    ∃ keys, value = .dict keys d ∧ keys ⊆ fields.map Str.ofString ∧ fields.map Str.ofString ⊆ keys := by
  unfold object
  cases value with
  | dict keys values =>
    simp only
    split_ifs with h
    · constructor
      · intro hd
        obtain rfl := Except.ok.inj hd
        exact ⟨keys, rfl, h⟩
      · rintro ⟨_, hvalue, -⟩
        cases hvalue
        rfl
    · constructor
      · intro hd
        cases hd
      · rintro ⟨_, hvalue, hk⟩
        cases hvalue
        exact absurd hk h
  | _ => simp

theorem clean_object : Clean (object value name fields) := by
  unfold object
  split
  · split_ifs
    · exact clean_ok _
    · exact clean_valueError _
  · exact clean_valueError _

theorem object_renamed (h : object value name fields = .ok d) : object value name' fields = .ok d :=
  object_ok.mpr (object_ok.mp h)

/-- Two objects of the same fields are equal field by field. -/
theorem equals_iff_object (h : object value name fields = .ok d) (h' : object value' name' fields = .ok d') :
    value.equals value' = true ↔ ∀ k ∈ fields, (d.get k).equals (d'.get k) = true := by
  obtain ⟨keys, rfl, hsub, hsup⟩ := object_ok.mp h
  obtain ⟨keys', rfl, hsub', hsup'⟩ := object_ok.mp h'
  simp only [equals, Bool.and_eq_true, decide_eq_true_eq, List.all_eq_true, Members.get]
  constructor
  · rintro ⟨-, hall⟩ k hk
    exact hall _ (hsup (List.mem_map_of_mem hk))
  · intro hall
    refine ⟨⟨fun k hk => hsup' (hsub hk), fun k hk => hsup (hsub' hk)⟩, fun k hk => ?_⟩
    obtain ⟨k', hk', rfl⟩ := List.mem_map.mp (hsub hk)
    exact hall k' hk'

theorem isText_iff {text : String} : isText text value = true ↔ value = .str (Str.ofString text) := by
  cases value <;> simp [isText]

end Objects

/-! ## A checked value and its reading -/

section Readings

variable {v w : Decoded}

/-- A number that is no bool. -/
def IsNumber (v : Decoded) (q : ℚ) : Prop := v.number = some (.finite q) ∧ ((∃ n, v = .int n) ∨ ∃ x, v = .float x)

theorem equals_iff_number {q r : ℚ} (hv : IsNumber v q) (hw : IsNumber w r) : v.equals w = true ↔ q = r := by
  obtain ⟨hvq, ⟨n, rfl⟩ | ⟨x, rfl⟩⟩ := hv <;> obtain ⟨hwr, ⟨m, rfl⟩ | ⟨y, rfl⟩⟩ := hw <;>
    simp only [number, Option.some.injEq] at hvq hwr <;> simp [equals, number, hvq, hwr]

/-- A document is read as a value: pending, or configured with a number. -/
inductive Reads (v : Decoded) : Option ℚ → Prop
  | pending {name : String} {d : Members} : object v name ["status", "value"] = .ok d →
      d.get "status" = .str (Str.ofString "pending_preregistration") → d.get "value" = .none_ → Reads v none
  | configured {name : String} {d : Members} {q : ℚ} : object v name ["status", "value"] = .ok d →
      d.get "status" = .str (Str.ofString "configured") → IsNumber (d.get "value") q → Reads v (some q)

theorem equals_iff_reads {r r' : Option ℚ} (hv : Reads v r) (hw : Reads w r') : v.equals w = true ↔ r = r' := by
  have hnumber {v : Decoded} {q : ℚ} (h : IsNumber v q) : v.equals .none_ = false ∧ Decoded.none_.equals v = false := by
    obtain ⟨-, ⟨n, rfl⟩ | ⟨x, rfl⟩⟩ := h <;> simp [equals, number]
  have hstatus : (Decoded.str (Str.ofString "configured")).equals (.str (Str.ofString "pending_preregistration")) = false ∧
      (Decoded.str (Str.ofString "pending_preregistration")).equals (.str (Str.ofString "configured")) = false := by decide
  cases hv with
  | pending hd hs hvalue =>
    cases hw with
    | pending hd' hs' hvalue' =>
      rw [equals_iff_object hd hd']
      simp [hs, hs', hvalue, hvalue', equals]
    | configured hd' hs' hvalue' =>
      rw [equals_iff_object hd hd']
      simp [hs, hs', hstatus]
  | configured hd hs hvalue =>
    cases hw with
    | pending hd' hs' hvalue' =>
      rw [equals_iff_object hd hd']
      simp [hs, hs', hstatus]
    | configured hd' hs' hvalue' =>
      rw [equals_iff_object hd hd']
      simp [hs, hs', equals, equals_iff_number hvalue hvalue']

theorem isPending_iff {d : Members} : isPending d = true ↔
    d.get "status" = .str (Str.ofString "pending_preregistration") ∧ d.get "value" = .none_ := by
  rw [isPending, Bool.and_eq_true, isText_iff]
  refine and_congr_right fun _ => ?_
  cases d.get "value" <;> simp

def ScoreThreshold.value : ScoreThreshold → Option ℚ
  | .pending => none
  | .configured s => some s.value

def CountThreshold.value : CountThreshold → Option ℚ
  | .pending => none
  | .configured c => some c.value

theorem ScoreThreshold.value_injective : Function.Injective ScoreThreshold.value := by
  rintro (_ | ⟨a, _⟩) (_ | ⟨b, _⟩) h <;> simp_all [ScoreThreshold.value]

theorem CountThreshold.value_injective : Function.Injective CountThreshold.value := by
  rintro (_ | ⟨a, _⟩) (_ | ⟨b, _⟩) h <;> simp_all [CountThreshold.value]

theorem configuredScore_ok {x : Float64} {s : ScoreThreshold} (h : configuredScore x = .ok s) :
    ∃ q, x = .finite q ∧ s.value = some q ∧ 0 ≤ q ∧ q ≤ 1 := by
  cases x with
  | finite q =>
    simp only [configuredScore] at h
    split_ifs at h with hq
    obtain rfl := Except.ok.inj h
    exact ⟨q, rfl, rfl, hq⟩
  | infinite _ => cases h
  | nan => cases h

theorem pendingOrScore_reads {s : ScoreThreshold} (h : pendingOrScore v = .ok s) : Reads v s.value := by
  simp only [pendingOrScore, bind_ok] at h
  obtain ⟨d, hd, h⟩ := h
  split_ifs at h with hp
  · obtain rfl := Except.ok.inj h
    obtain ⟨hs, hvalue⟩ := isPending_iff.mp hp
    exact .pending hd hs hvalue
  · split at h
    next n hstatus hn =>
      split at h
      next q hq =>
        obtain ⟨q', hq', hs, h0, h1⟩ := configuredScore_ok h
        obtain rfl := Float64.finite.inj hq'
        rw [hs]
        refine .configured hd (isText_iff.mp hstatus) ⟨?_, .inl ⟨n, hn⟩⟩
        rw [hn, number, Float64.ofInt_unit hq h0 h1]
      next => cases h
    next x hstatus hx =>
      obtain ⟨q, rfl, hs, -, -⟩ := configuredScore_ok h
      rw [hs]
      exact .configured hd (isText_iff.mp hstatus) ⟨by rw [hx, number], .inr ⟨_, hx⟩⟩
    next => cases h

theorem pendingOrCount_reads {c : CountThreshold} (h : pendingOrCount v = .ok c) : Reads v c.value := by
  simp only [pendingOrCount, bind_ok] at h
  obtain ⟨d, hd, h⟩ := h
  split_ifs at h with hp
  · obtain rfl := Except.ok.inj h
    obtain ⟨hs, hvalue⟩ := isPending_iff.mp hp
    exact .pending hd hs hvalue
  · split at h
    next n hstatus hn =>
      split_ifs at h
      obtain rfl := Except.ok.inj h
      exact .configured hd (isText_iff.mp hstatus) ⟨by rw [hn, number], .inl ⟨n, hn⟩⟩
    next => cases h

theorem equals_iff_pendingOrScore {s t : ScoreThreshold} (hv : pendingOrScore v = .ok s) (hw : pendingOrScore w = .ok t) :
    v.equals w = true ↔ s = t :=
  (equals_iff_reads (pendingOrScore_reads hv) (pendingOrScore_reads hw)).trans ScoreThreshold.value_injective.eq_iff

theorem equals_iff_pendingOrCount {s t : CountThreshold} (hv : pendingOrCount v = .ok s) (hw : pendingOrCount w = .ok t) :
    v.equals w = true ↔ s = t :=
  (equals_iff_reads (pendingOrCount_reads hv) (pendingOrCount_reads hw)).trans CountThreshold.value_injective.eq_iff

theorem member_ok {α : Type} {names : List (String × α)} {message : String} {a : α} (h : member v names message = .ok a) :
    ∃ n ∈ names, v = .str (Str.ofString n.1) ∧ a = n.2 := by
  unfold member at h
  split_ifs at h
  split at h
  next n hn =>
    have htext : isText n.1 v = true := by simpa using List.find?_some hn
    exact ⟨n, List.mem_of_find?_eq_some hn, isText_iff.mp htext, (Except.ok.inj h).symm⟩
  next => cases h

theorem layerOf_ok {l : Layer} (h : layerOf v = .ok l) : v = .str (Str.ofString l.text) := by
  obtain ⟨n, hn, hv, rfl⟩ := member_ok h
  obtain ⟨l, -, rfl⟩ := List.mem_map.mp hn
  exact hv

theorem sliceOf_ok {s : SliceName} (h : sliceOf v = .ok s) : v = .str (Str.ofString s.text) := by
  obtain ⟨n, hn, hv, rfl⟩ := member_ok h
  obtain ⟨s, -, rfl⟩ := List.mem_map.mp hn
  exact hv

theorem equals_str {s t : String} : (Decoded.str (Str.ofString s)).equals (.str (Str.ofString t)) = true ↔ s = t := by
  simp [equals, Str.ofString_injective.eq_iff]

theorem layer_text_injective : Function.Injective Layer.text := by
  intro l l'
  cases l <;> cases l' <;> decide

theorem slice_text_injective : Function.Injective SliceName.text := by
  intro s s'
  cases s <;> cases s' <;> decide

/-- What parsing a floor parsed. -/
theorem parseFloor_ok {f : LayerSliceThreshold} : parseFloor v = .ok f ↔
    ∃ d, object v "slice floor" ["layer", "minimumCases", "minimumScore", "slice"] = .ok d ∧
      layerOf (d.get "layer") = .ok f.layer ∧ sliceOf (d.get "slice") = .ok f.sliceName ∧
      pendingOrCount (d.get "minimumCases") = .ok f.minimumCases ∧ pendingOrScore (d.get "minimumScore") = .ok f.minimumScore := by
  simp only [parseFloor, bind_ok]
  constructor
  · rintro ⟨d, hd, l, hl, s, hs, c, hc, m, hm, h⟩
    obtain rfl := Except.ok.inj h
    exact ⟨d, hd, hl, hs, hc, hm⟩
  · rintro ⟨d, hd, hl, hs, hc, hm⟩
    exact ⟨d, hd, _, hl, _, hs, _, hc, _, hm, rfl⟩

theorem equals_iff_parseFloor {f g : LayerSliceThreshold} (hv : parseFloor v = .ok f) (hw : parseFloor w = .ok g) :
    v.equals w = true ↔ f = g := by
  obtain ⟨d, hd, hl, hs, hc, hm⟩ := parseFloor_ok.mp hv
  obtain ⟨d', hd', hl', hs', hc', hm'⟩ := parseFloor_ok.mp hw
  rw [equals_iff_object hd hd']
  simp only [List.forall_mem_cons, List.not_mem_nil, false_implies, implies_true, and_true]
  rw [layerOf_ok hl, layerOf_ok hl', sliceOf_ok hs, sliceOf_ok hs', equals_str, equals_str, equals_iff_pendingOrCount hc hc',
    equals_iff_pendingOrScore hm hm', layer_text_injective.eq_iff, slice_text_injective.eq_iff]
  obtain ⟨l, s, c, m⟩ := f
  obtain ⟨l', s', c', m'⟩ := g
  simp only [LayerSliceThreshold.mk.injEq]
  tauto

theorem floorsInOrder_ok {fs : List LayerSliceThreshold} : floorsInOrder v = .ok fs ↔
    ∃ n items, v = .list n items ∧ ∃ g : Fin n → LayerSliceThreshold, (∀ i, parseFloor (items i) = .ok (g i)) ∧ fs = List.ofFn g := by
  cases v with
  | list n items =>
    simp only [floorsInOrder, mapM_ofFn_ok]
    constructor
    · rintro ⟨g, hg, rfl⟩
      exact ⟨n, items, rfl, g, hg, rfl⟩
    · rintro ⟨n', items', h, g, hg, rfl⟩
      cases h
      exact ⟨g, hg, rfl⟩
  | _ =>
    simp only [floorsInOrder]
    constructor
    · intro h
      cases h
    · rintro ⟨_, _, h, -⟩
      cases h

theorem equals_iff_floorsInOrder {fs gs : List LayerSliceThreshold} (hv : floorsInOrder v = .ok fs)
    (hw : floorsInOrder w = .ok gs) : v.equals w = true ↔ fs = gs := by
  obtain ⟨n, items, rfl, f, hf, rfl⟩ := floorsInOrder_ok.mp hv
  obtain ⟨m, items', rfl, g, hg, rfl⟩ := floorsInOrder_ok.mp hw
  by_cases h : n = m
  · subst h
    simp only [equals, dif_pos, decide_eq_true_eq, Fin.cast_eq_self, List.ofFn_inj]
    exact (forall_congr' fun i => equals_iff_parseFloor (hf i) (hg i)).trans funext_iff.symm
  · simp only [equals, dif_neg h, Bool.false_eq_true, false_iff]
    intro heq
    exact h (by simpa using congrArg List.length heq)

theorem answerValues_ok {d : Members} {a : ScoreThreshold × ScoreThreshold} : answerValues d = .ok a ↔
    pendingOrScore (d.get "minimumNormalizedScore") = .ok a.1 ∧ pendingOrScore (d.get "minimumRefusalAccuracy") = .ok a.2 := by
  simp only [answerValues, bind_ok]
  constructor
  · rintro ⟨n, hn, r, hr, h⟩
    obtain rfl := Except.ok.inj h
    exact ⟨hn, hr⟩
  · rintro ⟨hn, hr⟩
    exact ⟨_, hn, _, hr, rfl⟩

/-- A document holds these answer thresholds, and these floors in this order. -/
def Snapshot (v : Decoded) (a : ScoreThreshold × ScoreThreshold) (fs : List LayerSliceThreshold) : Prop :=
  ∃ name name' d answer, object v name ["answer", "sliceFloors"] = .ok d ∧
    object (d.get "answer") name' ANSWER_FIELDS = .ok answer ∧ answerValues answer = .ok a ∧
    floorsInOrder (d.get "sliceFloors") = .ok fs

theorem equals_iff_snapshot {a b : ScoreThreshold × ScoreThreshold} {fs gs : List LayerSliceThreshold} (hv : Snapshot v a fs)
    (hw : Snapshot w b gs) : v.equals w = true ↔ a = b ∧ fs = gs := by
  obtain ⟨_, _, d, answer, hd, ha, hvalues, hfloors⟩ := hv
  obtain ⟨_, _, d', answer', hd', ha', hvalues', hfloors'⟩ := hw
  obtain ⟨h1, h2⟩ := answerValues_ok.mp hvalues
  obtain ⟨h1', h2'⟩ := answerValues_ok.mp hvalues'
  rw [equals_iff_object hd hd']
  simp only [List.forall_mem_cons, List.not_mem_nil, false_implies, implies_true, and_true]
  rw [equals_iff_object ha ha', equals_iff_floorsInOrder hfloors hfloors', Prod.ext_iff]
  simp only [ANSWER_FIELDS, List.forall_mem_cons, List.not_mem_nil, false_implies, implies_true, and_true]
  rw [equals_iff_pendingOrScore h1 h1', equals_iff_pendingOrScore h2 h2']

theorem parseFloors_ok {fs : List LayerSliceThreshold} : parseFloors v = .ok fs ↔
    ∃ gs, floorsInOrder v = .ok gs ∧ coversPairs gs = true ∧ fs = sortedBy (·.rank) gs := by
  simp only [parseFloors, bind_ok]
  refine exists_congr fun gs => and_congr_right fun _ => ?_
  by_cases hcovers : coversPairs gs = true
  · rw [if_pos hcovers]
    constructor
    · intro h
      exact ⟨hcovers, (Except.ok.inj h).symm⟩
    · rintro ⟨-, rfl⟩
      rfl
  · rw [if_neg hcovers]
    constructor
    · intro h
      cases h
    · rintro ⟨h, -⟩
      exact absurd h hcovers

theorem thresholdSnapshot_ok {name : String} (h : thresholdSnapshot v name = .ok ()) :
    ∃ a fs, Snapshot v a fs ∧ coversPairs fs = true := by
  simp only [thresholdSnapshot, bind_ok] at h
  obtain ⟨d, hd, answer, ha, a, hvalues, floors, hfloors, -⟩ := h
  obtain ⟨gs, hgs, hcovers, -⟩ := parseFloors_ok.mp hfloors
  exact ⟨a, gs, ⟨_, _, d, answer, hd, ha, hvalues, hgs⟩, hcovers⟩

end Readings

/-! ## Rendering -/

section Rendering

theorem pendingOrScore_document (s : ScoreThreshold) : pendingOrScore s.document = .ok s := by
  cases s with
  | pending => rfl
  | configured s =>
    obtain ⟨q, hq⟩ := s
    have hconfigured : configuredScore (.finite q) = .ok (.configured ⟨q, hq⟩) := dif_pos hq
    exact hconfigured

theorem pendingOrCount_document (c : CountThreshold) : pendingOrCount c.document = .ok c := by
  cases c with
  | pending => rfl
  | configured c =>
    obtain ⟨n, hn⟩ := c
    have hpositive : (if h : 0 < n then (.ok (.configured ⟨n, h⟩) : Except Raised CountThreshold)
        else .error (.valueError "configured minimumCases must be positive")) = .ok (.configured ⟨n, hn⟩) := dif_pos hn
    exact hpositive

theorem parseFloor_document (f : LayerSliceThreshold) : parseFloor f.document = .ok f := by
  refine parseFloor_ok.mpr ⟨_, object_ok.mpr ⟨_, rfl, by decide, by decide⟩, ?_, ?_, ?_, ?_⟩
  · have h : layerOf (.str (Str.ofString f.layer.text)) = .ok f.layer := by cases f.layer <;> rfl
    exact h
  · have h : sliceOf (.str (Str.ofString f.sliceName.text)) = .ok f.sliceName := by cases f.sliceName <;> rfl
    exact h
  · exact pendingOrCount_document f.minimumCases
  · exact pendingOrScore_document f.minimumScore

theorem floorsInOrder_document (fs : List LayerSliceThreshold) : floorsInOrder (listOf (fs.map (·.document))) = .ok fs := by
  refine floorsInOrder_ok.mpr ⟨_, _, rfl, fun i => fs.get (i.cast (List.length_map _)), fun i => ?_, ?_⟩
  · rw [List.get_eq_getElem, List.getElem_map]
    exact parseFloor_document _
  · apply List.ext_get
    · simp
    · intro i h h'
      simp

/-- What the constructor compares an event with: the answer thresholds and the sorted floors. -/
theorem snapshot_activeValues (c : Configuration) :
    Snapshot c.activeValues (c.minimumAnswerScore, c.minimumRefusalAccuracy) c.sliceFloors := by
  refine ⟨"", "", _, _, object_ok.mpr ⟨_, rfl, by decide, by decide⟩, object_ok.mpr ⟨_, rfl, by decide, by decide⟩, ?_, ?_⟩
  · exact answerValues_ok.mpr ⟨pendingOrScore_document c.minimumAnswerScore, pendingOrScore_document c.minimumRefusalAccuracy⟩
  · exact floorsInOrder_document c.sliceFloors

end Rendering

/-! ## The order of the floors -/

section Order

variable {fs gs : List LayerSliceThreshold}

theorem rank_injective {f g : LayerSliceThreshold} (h : f.rank = g.rank) : f.pair = g.pair := by
  obtain ⟨l, s, _, _⟩ := f
  obtain ⟨l', s', _, _⟩ := g
  revert h
  cases l <;> cases s <;> cases l' <;> cases s' <;> simp [LayerSliceThreshold.rank, LayerSliceThreshold.pair]

theorem coversPairs_iff : coversPairs fs = true ↔ (fs.map (·.pair)).Perm expectedPairs := by
  simp only [coversPairs, Bool.and_eq_true, beq_iff_eq, decide_eq_true_eq]
  have hnodup : expectedPairs.Nodup := by decide
  constructor
  · rintro ⟨hlength, -, hsub⟩
    exact ((List.subperm_of_subset hnodup hsub).perm_of_length_le (by simp [hlength, expectedPairs])).symm
  · intro h
    exact ⟨by simpa [expectedPairs] using h.length_eq, h.subset, h.symm.subset⟩

/-- Floors that cover every pair are told apart by their ranks. -/
theorem nodup_ranks (h : coversPairs fs = true) : (fs.map (·.rank)).Nodup := by
  have hpairs : (fs.map (·.pair)).Nodup := (coversPairs_iff.mp h).nodup_iff.mpr (by decide)
  rw [List.nodup_iff_injective_get] at hpairs ⊢
  intro i j hij
  have hij' : (fs.get (i.cast (by simp))).rank = (fs.get (j.cast (by simp))).rank := by simpa using hij
  have hpair := rank_injective hij'
  have := @hpairs (i.cast (by simp)) (j.cast (by simp)) (by simpa using hpair)
  exact Fin.ext (by simpa using congrArg Fin.val this)

theorem sortedBy_rank_perm (h : coversPairs fs = true) (hperm : fs.Perm gs) :
    sortedBy (·.rank) fs = sortedBy (·.rank) gs :=
  sortedBy_eq_of_perm hperm (fun _ _ => rfl) fun _ ha _ hb hab => List.inj_on_of_nodup_map (nodup_ranks h) ha hb hab

theorem coversPairs_perm (hperm : fs.Perm gs) : coversPairs fs = coversPairs gs := by
  rw [Bool.eq_iff_iff, coversPairs_iff, coversPairs_iff]
  exact (hperm.map _).congr_left _

/-- The sorted floors cover every pair, and stay in order. -/
theorem sortedBy_rank_covers (h : coversPairs fs = true) :
    coversPairs (sortedBy (·.rank) fs) = true ∧ sortedBy (·.rank) (sortedBy (·.rank) fs) = sortedBy (·.rank) fs :=
  ⟨(coversPairs_perm (sortedBy_perm _ fs)).trans h, sortedBy_of_pairwise (pairwise_sortedBy _ fs)⟩

/-- Different orders of floors that cover every pair are different lists. -/
theorem ofFn_comp_injective {n : Nat} {g : Fin n → LayerSliceThreshold} (h : coversPairs (List.ofFn g) = true)
    {σ τ : Equiv.Perm (Fin n)} (heq : List.ofFn (g ∘ σ) = List.ofFn (g ∘ τ)) : σ = τ := by
  have hg : Function.Injective g := List.nodup_ofFn.mp ((nodup_ranks h).of_map _)
  ext i
  exact congrArg Fin.val (hg (congrFun (List.ofFn_injective heq) i))

theorem length_covered {n : Nat} {g : Fin n → LayerSliceThreshold} (h : coversPairs (List.ofFn g) = true) : n = 9 := by
  simp only [coversPairs, Bool.and_eq_true, beq_iff_eq, List.length_ofFn] at h
  exact h.1

theorem exists_ofFn (h : coversPairs fs = true) : ∃ g : Fin 9 → LayerSliceThreshold, fs = List.ofFn g := by
  have hlength : fs.length = 9 := by
    simp only [coversPairs, Bool.and_eq_true, beq_iff_eq] at h
    exact h.1
  refine ⟨fun i => fs.get (i.cast hlength.symm), List.ext_get (by simp [hlength]) fun i h1 h2 => ?_⟩
  rw [List.get_ofFn]
  rfl

/-- An order for the lists of each length. -/
abbrev Orders := ∀ n, Equiv.Perm (Fin n)

/-- One order for the lists of one length. -/
def Orders.single {n : Nat} (σ : Equiv.Perm (Fin n)) : Orders := fun m => if h : n = m then h ▸ σ else 1

theorem Orders.single_self {n : Nat} (σ : Equiv.Perm (Fin n)) : Orders.single σ n = σ := dif_pos rfl

/-- Some order of the floors is neither of two given lists. -/
theorem exists_order {n : Nat} {g : Fin n → LayerSliceThreshold} (h : coversPairs (List.ofFn g) = true)
    (a b : List LayerSliceThreshold) : ∃ σ : Orders, List.ofFn (g ∘ σ n) ≠ a ∧ List.ofFn (g ∘ σ n) ≠ b := by
  obtain rfl := length_covered h
  by_contra hnone
  have hnone (σ : Equiv.Perm (Fin 9)) (hne : List.ofFn (g ∘ σ) ≠ a) : List.ofFn (g ∘ σ) = b := by
    by_contra hne'
    refine hnone ⟨.single σ, ?_, ?_⟩
    · rwa [Orders.single_self]
    · rwa [Orders.single_self]
  have hdiffer : ∀ {σ τ : Equiv.Perm (Fin 9)}, σ ≠ τ → List.ofFn (g ∘ σ) ≠ List.ofFn (g ∘ τ) :=
    fun hne heq => hne (ofFn_comp_injective h heq)
  have h01 := hdiffer (show (1 : Equiv.Perm (Fin 9)) ≠ Equiv.swap 0 1 by decide)
  have h02 := hdiffer (show (1 : Equiv.Perm (Fin 9)) ≠ Equiv.swap 0 2 by decide)
  have h12 := hdiffer (show (Equiv.swap 0 1 : Equiv.Perm (Fin 9)) ≠ Equiv.swap 0 2 by decide)
  have h0 := hnone 1
  have h1 := hnone (Equiv.swap 0 1)
  have h2 := hnone (Equiv.swap 0 2)
  -- two of the three orders are the same one of the two lists
  by_cases ha : List.ofFn (g ∘ (1 : Equiv.Perm (Fin 9))) = a
  · exact h12 ((h1 fun h => h01 (ha.trans h.symm)).trans (h2 fun h => h02 (ha.trans h.symm)).symm)
  · by_cases ha' : List.ofFn (g ∘ Equiv.swap (0 : Fin 9) 1) = a
    · exact h02 ((h0 ha).trans (h2 fun h => h12 (ha'.trans h.symm)).symm)
    · exact h01 ((h0 ha).trans (h1 ha').symm)

/-- The order that brings an item to the front. -/
def front (i n : Nat) : Equiv.Perm (Fin n) := if h : i < n then Equiv.swap ⟨0, by omega⟩ ⟨i, h⟩ else 1

/-- The order that swaps the two items after the first. -/
def swapNext (n : Nat) : Equiv.Perm (Fin n) := if h : 2 < n then Equiv.swap ⟨1, by omega⟩ ⟨2, h⟩ else 1

theorem front_zero {n : Nat} (i : Fin n) : front i n ⟨0, i.pos⟩ = i := by
  simp [front, i.isLt]

theorem swapNext_zero {n : Nat} (h : 0 < n) : swapNext n ⟨0, h⟩ = ⟨0, h⟩ := by
  unfold swapNext
  split_ifs
  · exact Equiv.swap_apply_of_ne_of_ne (by simp) (by simp)
  · rfl

/-- Two orders bring the item to the front; one of them is not the given list. -/
theorem exists_front {n m : Nat} (i : Fin m) {g : Fin n → LayerSliceThreshold} (h : coversPairs (List.ofFn g) = true)
    (a : List LayerSliceThreshold) : ∃ σ : Orders, σ m ⟨0, i.pos⟩ = i ∧ List.ofFn (g ∘ σ n) ≠ a := by
  obtain rfl := length_covered h
  by_cases hfront : List.ofFn (g ∘ front i 9) = a
  · refine ⟨fun n => front i n * swapNext n, ?_, fun hagain => ?_⟩
    · rw [Equiv.Perm.mul_apply, swapNext_zero, front_zero]
    · have hone := left_eq_mul.mp (ofFn_comp_injective h (hfront.trans hagain.symm))
      exact absurd hone (by decide)
  · exact ⟨fun n => front i n, front_zero i, hfront⟩

end Order

/-! ## Permuted documents -/

def permuteList (σ : Orders) : Decoded → Decoded
  | .list n items => .list n (items ∘ σ n)
  | v => v

def mapItems (f : Decoded → Decoded) : Decoded → Decoded
  | .list n items => .list n (f ∘ items)
  | v => v

/-- A document with one member changed. -/
def atKey (key : String) (f : Decoded → Decoded) : Decoded → Decoded
  | .dict keys values => .dict keys fun k => if k = Str.ofString key then f (values k) else values k
  | v => v

/-- An event with the floors of its new values in another order. -/
def permuteEvent (σ : Orders) : Decoded → Decoded := atKey "newValues" (atKey "sliceFloors" (permuteList σ))

/-- The floors of the document and of the event's new values, in another order. -/
def permuteFloors (σ : Orders) (document : Decoded) : Decoded :=
  atKey "sliceFloors" (permuteList σ) (atKey "calibration" (atKey "recordedEvents" (mapItems (permuteEvent σ))) document)

section Permuted

variable {σ : Orders} {v : Decoded} {name key : String} {fields : List String}

theorem object_atKey (f : Decoded → Decoded) : object (atKey key f v) name fields =
    (object v name fields).map fun d k => if k = Str.ofString key then f (d k) else d k := by
  unfold object atKey
  cases v with
  | dict keys values =>
    simp only
    split_ifs <;> rfl
  | _ => rfl

theorem object_atKey_ok {f : Decoded → Decoded} {d : Members} (h : object v name fields = .ok d) :
    ∃ d', object (atKey key f v) name fields = .ok d' ∧ d'.get key = f (d.get key) ∧
      ∀ k, k ≠ key → d'.get k = d.get k := by
  refine ⟨fun k => if k = Str.ofString key then f (d k) else d k, ?_, ?_, fun k hk => ?_⟩
  · rw [object_atKey, h]
    rfl
  · exact if_pos rfl
  · exact if_neg fun heq => hk (Str.ofString_injective heq)

theorem object_atKey_error {f : Decoded → Decoded} {e : Raised} (h : object v name fields = .error e) :
    object (atKey key f v) name fields = .error e := by
  rw [object_atKey, h]
  rfl

theorem floorsInOrder_permuteList {n : Nat} {items : Fin n → Decoded} {g : Fin n → LayerSliceThreshold}
    (h : ∀ i, parseFloor (items i) = .ok (g i)) : floorsInOrder (permuteList σ (.list n items)) = .ok (List.ofFn (g ∘ σ n)) :=
  floorsInOrder_ok.mpr ⟨n, items ∘ σ n, rfl, g ∘ σ n, fun i => h (σ n i), rfl⟩

/-- Parsing sorts the order away. -/
theorem parseFloors_permuteList {fs : List LayerSliceThreshold} (h : parseFloors v = .ok fs) :
    parseFloors (permuteList σ v) = .ok fs := by
  obtain ⟨gs, hgs, hcovers, rfl⟩ := parseFloors_ok.mp h
  obtain ⟨n, items, rfl, g, hg, rfl⟩ := floorsInOrder_ok.mp hgs
  have hperm : (List.ofFn g).Perm (List.ofFn (g ∘ σ n)) := (Equiv.Perm.ofFn_comp_perm _ _).symm
  refine parseFloors_ok.mpr ⟨_, floorsInOrder_permuteList hg, (coversPairs_perm hperm).symm.trans hcovers, ?_⟩
  exact sortedBy_rank_perm hcovers hperm

/-- Back to the order there was. -/
theorem permuteList_inv : permuteList (fun n => (σ n)⁻¹) (permuteList σ v) = v := by
  cases v with
  | list n items =>
    simp only [permuteList, Decoded.list.injEq, heq_eq_eq, true_and]
    funext i
    simp
  | _ => rfl

end Permuted

/-! ## What makes a document load soundly -/

section Conditions

variable (fromisoformat : FromIsoformat)

/-- A configured integer score has no float. -/
def Overflows (v : Decoded) : Prop :=
  ∃ name d n, object v name ["status", "value"] = .ok d ∧ d.get "status" = .str (Str.ofString "configured") ∧
    d.get "value" = .int n ∧ Float64.ofInt n = none

/-- The first of the two answer thresholds that is no value overflows. -/
def AnswerRaises (answer : Members) : Prop :=
  Overflows (answer.get "minimumNormalizedScore") ∨
    (∃ s, pendingOrScore (answer.get "minimumNormalizedScore") = .ok s) ∧ Overflows (answer.get "minimumRefusalAccuracy")

/-- The first field of a floor that is no value has no hash, or no float. -/
def FloorRaises (v : Decoded) : Prop :=
  ∃ d, object v "slice floor" ["layer", "minimumCases", "minimumScore", "slice"] = .ok d ∧
    ((d.get "layer").hashable = false ∨
      (∃ l, layerOf (d.get "layer") = .ok l) ∧ ((d.get "slice").hashable = false ∨
        (∃ s, sliceOf (d.get "slice") = .ok s) ∧ (∃ c, pendingOrCount (d.get "minimumCases") = .ok c) ∧
          Overflows (d.get "minimumScore")))

/-- A floor of the list has such a field. -/
def FloorStumbles (v : Decoded) : Prop := ∃ n items, v = .list n items ∧ ∃ i, FloorRaises (items i)

/-- The first floor of the list that is no value has such a field. -/
def FloorsRaise (v : Decoded) : Prop :=
  ∃ n items, v = .list n items ∧ ∃ i : Fin n, (∀ j < i, ∃ f, parseFloor (items j) = .ok f) ∧ FloorRaises (items i)

/-- Reading a snapshot meets such a field. -/
def SnapshotRaises (v : Decoded) : Prop :=
  ∃ name name' d answer, object v name ["answer", "sliceFloors"] = .ok d ∧
    object (d.get "answer") name' ANSWER_FIELDS = .ok answer ∧
    (AnswerRaises answer ∨ (∃ a, answerValues answer = .ok a) ∧ FloorsRaise (d.get "sliceFloors"))

/-- Reading a snapshot meets such a field in some order of the floors. -/
def SnapshotStumbles (v : Decoded) : Prop :=
  ∃ name name' d answer, object v name ["answer", "sliceFloors"] = .ok d ∧
    object (d.get "answer") name' ANSWER_FIELDS = .ok answer ∧
    (AnswerRaises answer ∨ (∃ a, answerValues answer = .ok a) ∧ FloorStumbles (d.get "sliceFloors"))

/-- An event passes, up to the check that it records a change. -/
def EventPasses (e : Decoded) (newValues : Decoded) : Prop :=
  ∃ digest oldValues, eventHead fromisoformat e = .ok (digest, oldValues, newValues) ∧
    thresholdSnapshot oldValues "threshold calibration old values" = .ok () ∧
    thresholdSnapshot newValues "threshold calibration new values" = .ok ()

def EventStumbles (e : Decoded) : Prop :=
  ∃ digest oldValues newValues, eventHead fromisoformat e = .ok (digest, oldValues, newValues) ∧
    (SnapshotRaises oldValues ∨
      thresholdSnapshot oldValues "threshold calibration old values" = .ok () ∧ SnapshotStumbles newValues)

/-- In some order of the floors the loader reads a layer or a slice that has no hash, or a
    score that has no float. -/
def Stumbles (document : Decoded) : Prop :=
  ∃ opened, openDocument document = .ok opened ∧
    ((∃ e ∈ opened.events, EventStumbles fromisoformat e) ∨
      (∀ e ∈ opened.events, ∃ newValues, EventPasses fromisoformat e newValues) ∧
        (FloorStumbles opened.sliceFloors ∨
          (∃ fs, parseFloors opened.sliceFloors = .ok fs) ∧ AnswerRaises opened.answer))

/-- The document records a calibration event that binds its active values. -/
def BindsEvent (document : Decoded) : Prop :=
  ∃ opened e newValues, openDocument document = .ok opened ∧ opened.events = [e] ∧ EventPasses fromisoformat e newValues ∧
    (∃ fs, parseFloors opened.sliceFloors = .ok fs) ∧ (∃ a, answerValues opened.answer = .ok a) ∧
    newValues.equals (activeValues opened.answerDocument opened.sliceFloors) = true

/-- What is raised, up to its message. -/
inductive Failure where
  | valueError
  | typeError
  | overflowError
  deriving DecidableEq

def Raised.failure : Raised → Failure
  | .valueError _ => .valueError
  | .typeError _ => .typeError
  | .overflowError => .overflowError

/-- Loading a document is sound: it raises ValueError at most, the constructor accepts what
    the loader's checks let through, and the order of the floors makes no difference. -/
structure LoadsSoundly (document : Option Decoded) (authority : SourceAuthority) : Prop where
  clean : Clean (loadThresholds fromisoformat document authority)
  accepted : ∀ c, loadConfiguration fromisoformat document authority = .ok c → ∃ t, construct fromisoformat c = .ok t
  permuted : ∀ σ, (loadThresholds fromisoformat (document.map (permuteFloors σ)) authority).mapError Raised.failure =
    (loadThresholds fromisoformat document authority).mapError Raised.failure

end Conditions

/-! ## What raises -/

section Raises

variable {v : Decoded}

theorem not_clean_object_bind {β : Type} {name : String} {fields : List String} {f : Members → Except Raised β} :
    ¬Clean (object v name fields >>= f) ↔ ∃ d, object v name fields = .ok d ∧ ¬Clean (f d) := by
  rw [not_clean_bind_iff, or_iff_right (not_not.mpr clean_object)]

theorem clean_configuredScore {x : Float64} : Clean (configuredScore x) := by
  unfold configuredScore
  split
  · split_ifs
    · exact clean_ok _
    · exact clean_valueError _
  · exact clean_valueError _

theorem not_clean_pendingOrScore : ¬Clean (pendingOrScore v) ↔ Overflows v := by
  rw [pendingOrScore, not_clean_object_bind]
  constructor
  · rintro ⟨d, hd, h⟩
    split_ifs at h
    · exact absurd (clean_ok _) h
    · split at h
      next n hstatus hn =>
        split at h
        next => exact absurd clean_configuredScore h
        next hfloat => exact ⟨_, d, n, hd, isText_iff.mp hstatus, hn, hfloat⟩
      next => exact absurd clean_configuredScore h
      next => exact absurd (clean_valueError _) h
  · rintro ⟨name, d, n, hd, hstatus, hn, hfloat⟩
    have hpending : isPending d = false := by simp [isPending, hn]
    have hconfigured : isText "configured" (d.get "status") = true := isText_iff.mpr hstatus
    refine ⟨d, object_ok.mpr (object_ok.mp hd), ?_⟩
    simp only [hpending, hconfigured, hn, hfloat, Bool.false_eq_true, if_false]
    intro hclean
    obtain ⟨message, hmessage⟩ := hclean _ rfl
    cases hmessage

theorem clean_pendingOrCount : Clean (pendingOrCount v) := by
  refine clean_object.bind fun d _ => ?_
  split_ifs
  · exact clean_ok _
  · split
    · split_ifs
      · exact clean_ok _
      · exact clean_valueError _
    · exact clean_valueError _

theorem not_clean_member {α : Type} {names : List (String × α)} {message : String} :
    ¬Clean (member v names message) ↔ v.hashable = false := by
  unfold member
  split_ifs with hash
  · simp only [hash, iff_true]
    intro hclean
    obtain ⟨message, hmessage⟩ := hclean _ rfl
    cases hmessage
  · refine iff_of_false (not_not.mpr ?_) hash
    split
    · exact clean_ok _
    · exact clean_valueError _

theorem not_clean_answerValues {answer : Members} : ¬Clean (answerValues answer) ↔ AnswerRaises answer := by
  simp only [answerValues, not_clean_bind_iff, not_clean_pendingOrScore, AnswerRaises]
  refine or_congr_right ⟨?_, ?_⟩
  · rintro ⟨s, hs, h | ⟨_, -, h⟩⟩
    · exact ⟨⟨s, hs⟩, h⟩
    · exact absurd (clean_ok _) h
  · rintro ⟨⟨s, hs⟩, h⟩
    exact ⟨s, hs, .inl h⟩

theorem not_clean_parseFloor : ¬Clean (parseFloor v) ↔ FloorRaises v := by
  have hrest (d : Members) (l : Layer) (s : SliceName) :
      ¬Clean (do
        let c ← pendingOrCount (d.get "minimumCases")
        let m ← pendingOrScore (d.get "minimumScore")
        return (⟨l, s, c, m⟩ : LayerSliceThreshold)) ↔
      (∃ c, pendingOrCount (d.get "minimumCases") = .ok c) ∧ Overflows (d.get "minimumScore") := by
    rw [not_clean_bind_iff, or_iff_right (not_not.mpr clean_pendingOrCount)]
    constructor
    · rintro ⟨c, hc, h⟩
      obtain h | ⟨_, -, h⟩ := not_clean_bind_iff.mp h
      · exact ⟨⟨c, hc⟩, not_clean_pendingOrScore.mp h⟩
      · exact absurd (clean_ok _) h
    · rintro ⟨⟨c, hc⟩, h⟩
      exact ⟨c, hc, not_clean_bind (not_clean_pendingOrScore.mpr h)⟩
  rw [parseFloor, not_clean_object_bind]
  refine exists_congr fun d => and_congr_right fun _ => ?_
  rw [not_clean_bind_iff, layerOf, not_clean_member]
  refine or_congr_right ?_
  simp only [not_clean_bind_iff, sliceOf, not_clean_member, hrest]
  constructor
  · rintro ⟨l, hl, h | ⟨s, hs, h⟩⟩
    · exact ⟨⟨l, hl⟩, .inl h⟩
    · exact ⟨⟨l, hl⟩, .inr ⟨⟨s, hs⟩, h⟩⟩
  · rintro ⟨⟨l, hl⟩, h | ⟨⟨s, hs⟩, h⟩⟩
    · exact ⟨l, hl, .inl h⟩
    · exact ⟨l, hl, .inr ⟨s, hs, h⟩⟩

theorem not_clean_parseFloors : ¬Clean (parseFloors v) ↔ FloorsRaise v := by
  have hcovers (fs : List LayerSliceThreshold) : Clean (if coversPairs fs then return sortedBy (·.rank) fs
      else throw (.valueError "sliceFloors must cover each layer and slice exactly once") : Except Raised (List LayerSliceThreshold)) := by
    split_ifs
    · exact clean_ok _
    · exact clean_valueError _
  rw [parseFloors, not_clean_bind_iff]
  simp only [hcovers, not_true_eq_false, and_false, exists_false, or_false]
  cases v with
  | list n items =>
    simp only [floorsInOrder, not_clean_mapM_ofFn, not_clean_parseFloor]
    constructor
    · intro h
      exact ⟨n, items, rfl, h⟩
    · rintro ⟨_, _, h, hraises⟩
      cases h
      exact hraises
  | _ =>
    simp only [floorsInOrder, clean_valueError, not_true_eq_false, false_iff]
    rintro ⟨_, _, h, -⟩
    cases h

theorem not_clean_thresholdSnapshot {name : String} : ¬Clean (thresholdSnapshot v name) ↔ SnapshotRaises v := by
  have hfloors (w : Decoded) : ¬Clean (parseFloors w >>= fun _ => pure ()) ↔ FloorsRaise w := by
    rw [not_clean_bind_iff, not_clean_parseFloors, or_iff_left]
    rintro ⟨_, -, h⟩
    exact h (clean_ok _)
  have hrest (w : Decoded) (answer : Members) :
      ¬Clean (answerValues answer >>= fun _ => parseFloors w >>= fun _ => pure ()) ↔
        AnswerRaises answer ∨ (∃ a, answerValues answer = .ok a) ∧ FloorsRaise w := by
    rw [not_clean_bind_iff, not_clean_answerValues]
    simp only [hfloors, exists_and_right]
  rw [thresholdSnapshot, not_clean_object_bind]
  constructor
  · rintro ⟨d, hd, h⟩
    obtain ⟨answer, ha, h⟩ := not_clean_object_bind.mp h
    exact ⟨_, _, d, answer, hd, ha, (hrest _ _).mp h⟩
  · rintro ⟨_, _, d, answer, hd, ha, h⟩
    exact ⟨d, object_renamed hd, not_clean_object_bind.mpr ⟨answer, object_renamed ha, (hrest _ _).mpr h⟩⟩

end Raises

/-! ## Checks that raise ValueError only -/

section CleanChecks

variable {v : Decoded} {fromisoformat : FromIsoformat}

theorem clean_require (condition : Bool) (message : String) : Clean (require condition message) := by
  unfold require
  split_ifs
  · exact clean_ok _
  · exact clean_valueError _

theorem require_ok {condition : Bool} {message : String} : require condition message = .ok () ↔ condition = true := by
  cases condition <;> simp [require]

theorem clean_recordedEvents : Clean (recordedEvents v) := by
  unfold recordedEvents
  split
  · split_ifs
    · exact clean_ok _
    · exact clean_valueError _
  · exact clean_valueError _

theorem clean_openDocument : Clean (openDocument v) := by
  refine clean_object.bind fun d _ => (clean_require _ _).bind fun _ _ => clean_object.bind fun answer _ => ?_
  refine clean_object.bind fun calibration _ => (clean_require _ _).bind fun _ _ => clean_recordedEvents.bind fun _ _ => ?_
  exact clean_ok _

theorem clean_lineageChecks {authority pilotDigest reason recordedAt : Decoded} :
    Clean (lineageChecks fromisoformat authority pilotDigest reason recordedAt) := by
  have hdigest : Clean (pilotDigestOf pilotDigest) := by
    unfold pilotDigestOf
    split
    · split_ifs
      · exact clean_ok _
      · exact clean_valueError _
    · exact clean_valueError _
  have htime : Clean (checkTime fromisoformat recordedAt) := by
    unfold checkTime
    split
    · split
      · exact clean_require _ _
      · exact clean_valueError _
    · exact clean_valueError _
  refine (clean_require _ _).bind fun _ _ => hdigest.bind fun _ _ => (clean_require _ _).bind fun _ _ => ?_
  exact htime.bind fun _ _ => clean_ok _

theorem clean_eventHead : Clean (eventHead fromisoformat v) :=
  clean_object.bind fun _ _ => clean_lineageChecks.bind fun _ _ => clean_ok _

theorem clean_floorsInOrder (h : ¬FloorStumbles v) : Clean (floorsInOrder v) := by
  cases v with
  | list n items =>
    refine Clean.mapM fun x hx => ?_
    obtain ⟨i, rfl⟩ := List.mem_ofFn.mp hx
    by_contra hstumbles
    exact h ⟨n, items, rfl, i, not_clean_parseFloor.mp hstumbles⟩
  | _ => exact clean_valueError _

theorem clean_parseFloors (h : ¬FloorStumbles v) : Clean (parseFloors v) := by
  refine (clean_floorsInOrder h).bind fun fs _ => ?_
  split_ifs
  · exact clean_ok _
  · exact clean_valueError _

theorem clean_thresholdSnapshot {name : String} (h : ¬SnapshotStumbles v) : Clean (thresholdSnapshot v name) := by
  refine clean_object.bind fun d hd => clean_object.bind fun answer ha => Clean.bind ?_ fun a hvalues => Clean.bind ?_ fun _ _ => clean_ok _
  · by_contra hstumbles
    exact h ⟨_, _, d, answer, hd, ha, .inl (not_clean_answerValues.mp hstumbles)⟩
  · refine clean_parseFloors fun hstumbles => h ⟨_, _, d, answer, hd, ha, .inr ⟨⟨a, hvalues⟩, hstumbles⟩⟩

theorem clean_calibrationEvent (h : ¬EventStumbles fromisoformat v) : Clean (calibrationEvent fromisoformat v) := by
  refine clean_eventHead.bind fun ⟨digest, oldValues, newValues⟩ hhead => ?_
  refine Clean.bind ?_ fun _ hold => Clean.bind ?_ fun _ _ => ?_
  · by_contra hstumbles
    exact h ⟨_, _, _, hhead, .inl (not_clean_thresholdSnapshot.mp hstumbles)⟩
  · exact clean_thresholdSnapshot fun hstumbles => h ⟨_, _, _, hhead, .inr ⟨hold, hstumbles⟩⟩
  · exact (clean_require _ _).bind fun _ _ => clean_ok _

/-- What an event passed. -/
theorem calibrationEvent_ok {ev : CalibrationEvent} : calibrationEvent fromisoformat v = .ok ev ↔
    ∃ oldValues, eventHead fromisoformat v = .ok (ev.pilotDigest, oldValues, ev.newValues) ∧ ev.document = v ∧
      thresholdSnapshot oldValues "threshold calibration old values" = .ok () ∧
      thresholdSnapshot ev.newValues "threshold calibration new values" = .ok () ∧ oldValues.equals ev.newValues = false := by
  simp only [calibrationEvent, bind_ok]
  constructor
  · rintro ⟨⟨digest, oldValues, newValues⟩, hhead, _, hold, _, hnew, _, hchange, h⟩
    obtain rfl := Except.ok.inj h
    exact ⟨oldValues, hhead, rfl, hold, hnew, by simpa using require_ok.mp hchange⟩
  · rintro ⟨oldValues, hhead, rfl, hold, hnew, hchange⟩
    exact ⟨_, hhead, (), hold, (), hnew, (), require_ok.mpr (by simp [hchange]), rfl⟩

theorem eventPasses_of_ok {ev : CalibrationEvent} (h : calibrationEvent fromisoformat v = .ok ev) :
    EventPasses fromisoformat v ev.newValues := by
  obtain ⟨oldValues, hhead, -, hold, hnew, -⟩ := calibrationEvent_ok.mp h
  exact ⟨_, oldValues, hhead, hold, hnew⟩

/-- What an opened document holds. -/
theorem openDocument_ok {opened : Opened} : openDocument v = .ok opened ↔
    ∃ d answer calibration, object v "evaluation thresholds" ["answer", "calibration", "schemaVersion", "sliceFloors"] = .ok d ∧
      (d.get "schemaVersion").isText "context-engine-eval-thresholds-v1" = true ∧
      object (d.get "answer") "answer thresholds" ANSWER_FIELDS = .ok answer ∧
      object (d.get "calibration") "threshold calibration" ["maximumRecordedEvents", "recordedEvents"] = .ok calibration ∧
      allowsOne (calibration.get "maximumRecordedEvents") = true ∧
      ∃ n items, calibration.get "recordedEvents" = .list n items ∧ n ≤ 1 ∧
        opened = ⟨d.get "answer", answer, d.get "sliceFloors", List.ofFn items⟩ := by
  have hevents {w : Decoded} {events : List Decoded} : recordedEvents w = .ok events ↔
      ∃ n items, w = .list n items ∧ n ≤ 1 ∧ events = List.ofFn items := by
    cases w with
    | list n items =>
      simp only [recordedEvents]
      split_ifs with hn
      · constructor
        · intro h
          exact ⟨n, items, rfl, hn, (Except.ok.inj h).symm⟩
        · rintro ⟨_, _, h, -, rfl⟩
          cases h
          rfl
      · constructor
        · intro h
          cases h
        · rintro ⟨_, _, h, hn', -⟩
          cases h
          exact absurd hn' hn
    | _ =>
      simp only [recordedEvents]
      constructor
      · intro h
        cases h
      · rintro ⟨_, _, h, -⟩
        cases h
  simp only [openDocument, bind_ok]
  constructor
  · rintro ⟨d, hd, _, hschema, answer, ha, calibration, hc, _, hmax, events, hev, h⟩
    obtain ⟨n, items, hlist, hn, rfl⟩ := hevents.mp hev
    exact ⟨d, answer, calibration, hd, require_ok.mp hschema, ha, hc, require_ok.mp hmax, n, items, hlist, hn, (Except.ok.inj h).symm⟩
  · rintro ⟨d, answer, calibration, hd, hschema, ha, hc, hmax, n, items, hlist, hn, rfl⟩
    exact ⟨d, hd, (), require_ok.mpr hschema, answer, ha, calibration, hc, (), require_ok.mpr hmax, _,
      hevents.mpr ⟨n, items, hlist, hn, rfl⟩, rfl⟩

/-- At most one event is recorded. -/
theorem openDocument_events {opened : Opened} (h : openDocument v = .ok opened) :
    opened.events = [] ∨ ∃ e, opened.events = [e] := by
  obtain ⟨d, answer, calibration, -, -, -, -, -, n, items, -, hn, rfl⟩ := openDocument_ok.mp h
  interval_cases n
  · exact .inl rfl
  · exact .inr ⟨items 0, rfl⟩

end CleanChecks

/-! ## What a new order changes -/

section NewOrder

variable {σ : Orders} {v : Decoded} {fromisoformat : FromIsoformat} {opened : Opened}

/-- An opened document with its floors in another order. -/
def Opened.permuted (σ : Orders) (o : Opened) : Opened :=
  ⟨o.answerDocument, o.answer, permuteList σ o.sliceFloors, o.events.map (permuteEvent σ)⟩

theorem get_changed (d : Members) (f : Decoded → Decoded) (key key' : String) :
    Members.get (fun k => if k = Str.ofString key then f (d k) else d k) key' =
      if key' = key then f (d.get key') else d.get key' := by
  simp [Members.get, Str.ofString_injective.eq_iff]

theorem recordedEvents_mapItems (f : Decoded → Decoded) : recordedEvents (mapItems f v) = (recordedEvents v).map (·.map f) := by
  cases v with
  | list n items =>
    simp only [recordedEvents, mapItems]
    split_ifs
    · simp [Except.map, List.map_ofFn]
    · rfl
  | _ => rfl

/-- Opening commutes with a new order of the floors. -/
theorem openDocument_permuteFloors : openDocument (permuteFloors σ v) = (openDocument v).map (Opened.permuted σ) := by
  simp only [openDocument, permuteFloors, object_atKey]
  cases object v "evaluation thresholds" ["answer", "calibration", "schemaVersion", "sliceFloors"] with
  | error e => rfl
  | ok d =>
    simp only [Except.map, ok_bind, get_changed, object_atKey, String.reduceEq, if_false, if_true]
    cases require (isText "context-engine-eval-thresholds-v1" (d.get "schemaVersion")) "evaluation thresholds version is unavailable" with
    | error e => rfl
    | ok _ =>
      cases object (d.get "answer") "answer thresholds" ANSWER_FIELDS with
      | error e => rfl
      | ok answer =>
        cases object (d.get "calibration") "threshold calibration" ["maximumRecordedEvents", "recordedEvents"] with
        | error e => rfl
        | ok calibration =>
          simp only [ok_bind, get_changed, String.reduceEq, if_false, if_true, recordedEvents_mapItems]
          cases require (allowsOne (calibration.get "maximumRecordedEvents")) "threshold calibration must allow exactly one event" with
          | error e => rfl
          | ok _ => cases recordedEvents (calibration.get "recordedEvents") <;> rfl

theorem eventHead_permuteEvent : eventHead fromisoformat (permuteEvent σ v) =
    (eventHead fromisoformat v).map fun (digest, oldValues, newValues) =>
      (digest, oldValues, atKey "sliceFloors" (permuteList σ) newValues) := by
  simp only [eventHead, permuteEvent, object_atKey]
  cases object v "threshold calibration event" EVENT_FIELDS with
  | error e => rfl
  | ok d =>
    simp only [Except.map, ok_bind, get_changed, String.reduceEq, if_false, if_true]
    cases lineageChecks fromisoformat (d.get "authority") (d.get "pilotDigest") (d.get "reason") (d.get "recordedAt") <;> rfl

theorem parseFloors_permuteList_iff {fs : List LayerSliceThreshold} :
    parseFloors (permuteList σ v) = .ok fs ↔ parseFloors v = .ok fs := by
  refine ⟨fun h => ?_, parseFloors_permuteList⟩
  rw [← permuteList_inv (σ := σ) (v := v)]
  exact parseFloors_permuteList h

theorem floorStumbles_permuteList : FloorStumbles (permuteList σ v) ↔ FloorStumbles v := by
  cases v with
  | list n items =>
    constructor
    · rintro ⟨_, _, h, i, hi⟩
      cases h
      exact ⟨n, items, rfl, σ n i, hi⟩
    · rintro ⟨_, _, h, i, hi⟩
      cases h
      refine ⟨n, items ∘ σ n, rfl, (σ n)⁻¹ i, ?_⟩
      simpa using hi
  | _ => rfl

/-- The item in front is the first to raise. -/
theorem not_clean_front {n : Nat} {items : Fin n → Decoded} {i : Fin n} (hstumbles : ¬Clean (parseFloor (items i)))
    (hfront : σ n ⟨0, i.pos⟩ = i) : ¬Clean (parseFloors (permuteList σ (.list n items))) := by
  intro hclean
  obtain ⟨m, rfl⟩ : ∃ m, n = m + 1 := ⟨n - 1, by have := i.pos; omega⟩
  simp only [Clean, not_forall] at hstumbles
  obtain ⟨e, he, hvalue⟩ := hstumbles
  refine hvalue (hclean e ?_)
  have hfirst : parseFloor ((items ∘ σ (m + 1)) 0) = .error e := by rw [Function.comp_apply, show (0 : Fin (m + 1)) = ⟨0, i.pos⟩ from rfl, hfront, he]
  simp only [parseFloors, floorsInOrder, permuteList, List.ofFn_succ, List.mapM_cons, hfirst]
  rfl

/-- An object read from a permuted document is the changed object of the document. -/
theorem object_permuted_ok {name : String} {fields : List String} {d' : Members} :
    object (atKey "sliceFloors" (permuteList σ) v) name fields = .ok d' ↔
      ∃ d, object v name fields = .ok d ∧ d' = fun k => if k = Str.ofString "sliceFloors" then permuteList σ (d k) else d k := by
  rw [object_atKey]
  cases object v name fields with
  | error e => simp [Except.map]
  | ok d => simp [Except.map, eq_comm]

theorem snapshotStumbles_permuted :
    SnapshotStumbles (atKey "sliceFloors" (permuteList σ) v) ↔ SnapshotStumbles v := by
  constructor
  · rintro ⟨name, name', d', answer, hd', ha, h⟩
    obtain ⟨d, hd, rfl⟩ := object_permuted_ok.mp hd'
    simp only [get_changed, String.reduceEq, if_false, if_true, floorStumbles_permuteList] at ha h
    exact ⟨name, name', d, answer, hd, ha, h⟩
  · rintro ⟨name, name', d, answer, hd, ha, h⟩
    refine ⟨name, name', _, answer, object_permuted_ok.mpr ⟨d, hd, rfl⟩, ?_, ?_⟩
    · simpa only [get_changed, String.reduceEq, if_false] using ha
    · simpa only [get_changed, if_true, floorStumbles_permuteList] using h

theorem thresholdSnapshot_ok_iff {name : String} : thresholdSnapshot v name = .ok () ↔
    ∃ d answer a fs, object v name ["answer", "sliceFloors"] = .ok d ∧
      object (d.get "answer") (name ++ " answer") ANSWER_FIELDS = .ok answer ∧ answerValues answer = .ok a ∧
      parseFloors (d.get "sliceFloors") = .ok fs := by
  simp only [thresholdSnapshot, bind_ok]
  constructor
  · rintro ⟨d, hd, answer, ha, a, hvalues, fs, hfs, -⟩
    exact ⟨d, answer, a, fs, hd, ha, hvalues, hfs⟩
  · rintro ⟨d, answer, a, fs, hd, ha, hvalues, hfs⟩
    exact ⟨d, hd, answer, ha, a, hvalues, fs, hfs, rfl⟩

theorem thresholdSnapshot_permuted {name : String} :
    thresholdSnapshot (atKey "sliceFloors" (permuteList σ) v) name = .ok () ↔ thresholdSnapshot v name = .ok () := by
  rw [thresholdSnapshot_ok_iff, thresholdSnapshot_ok_iff]
  constructor
  · rintro ⟨d', answer, a, fs, hd', ha, hvalues, hfs⟩
    obtain ⟨d, hd, rfl⟩ := object_permuted_ok.mp hd'
    simp only [get_changed, String.reduceEq, if_false, if_true, parseFloors_permuteList_iff] at ha hfs
    exact ⟨d, answer, a, fs, hd, ha, hvalues, hfs⟩
  · rintro ⟨d, answer, a, fs, hd, ha, hvalues, hfs⟩
    refine ⟨_, answer, a, fs, object_permuted_ok.mpr ⟨d, hd, rfl⟩, ?_, hvalues, ?_⟩
    · simpa only [get_changed, String.reduceEq, if_false] using ha
    · simpa only [get_changed, if_true, parseFloors_permuteList_iff] using hfs

/-- The snapshot of a permuted document lists the floors in the new order. -/
theorem Snapshot.permuted {a : ScoreThreshold × ScoreThreshold} {n : Nat} {g : Fin n → LayerSliceThreshold}
    (h : Snapshot v a (List.ofFn g)) : Snapshot (atKey "sliceFloors" (permuteList σ) v) a (List.ofFn (g ∘ σ n)) := by
  obtain ⟨name, name', d, answer, hd, ha, hvalues, hfloors⟩ := h
  obtain ⟨n', items, hlist, g', hg, heq⟩ := floorsInOrder_ok.mp hfloors
  obtain ⟨rfl, hg'⟩ := Sigma.mk.inj_iff.mp (List.ofFn_inj'.mp heq)
  obtain rfl := eq_of_heq hg'
  refine ⟨name, name', _, answer, object_permuted_ok.mpr ⟨d, hd, rfl⟩, ?_, hvalues, ?_⟩
  · simpa only [get_changed, String.reduceEq, if_false] using ha
  · simp only [get_changed, if_true, hlist]
    exact floorsInOrder_permuteList hg

theorem eventPasses_permuted {newValues : Decoded} (h : EventPasses fromisoformat v newValues) :
    EventPasses fromisoformat (permuteEvent σ v) (atKey "sliceFloors" (permuteList σ) newValues) := by
  obtain ⟨digest, oldValues, hhead, hold, hnew⟩ := h
  refine ⟨digest, oldValues, ?_, hold, thresholdSnapshot_permuted.mpr hnew⟩
  rw [eventHead_permuteEvent, hhead]
  rfl

theorem eventPasses_of_permuted {newValues : Decoded} (h : EventPasses fromisoformat (permuteEvent σ v) newValues) :
    ∃ newValues', EventPasses fromisoformat v newValues' ∧ newValues = atKey "sliceFloors" (permuteList σ) newValues' := by
  obtain ⟨digest, oldValues, hhead, hold, hnew⟩ := h
  rw [eventHead_permuteEvent] at hhead
  cases hv : eventHead fromisoformat v with
  | error e =>
    rw [hv] at hhead
    cases hhead
  | ok head =>
    obtain ⟨digest', oldValues', newValues'⟩ := head
    rw [hv] at hhead
    cases hhead
    exact ⟨newValues', ⟨digest, oldValues, hv, hold, thresholdSnapshot_permuted.mp hnew⟩, rfl⟩

theorem eventStumbles_permuted : EventStumbles fromisoformat (permuteEvent σ v) → EventStumbles fromisoformat v := by
  rintro ⟨digest, oldValues, newValues, hhead, h⟩
  rw [eventHead_permuteEvent] at hhead
  cases hv : eventHead fromisoformat v with
  | error e =>
    rw [hv] at hhead
    cases hhead
  | ok head =>
    obtain ⟨digest', oldValues', newValues'⟩ := head
    rw [hv] at hhead
    cases hhead
    rw [snapshotStumbles_permuted] at h
    exact ⟨digest, oldValues, newValues', hv, h⟩

/-- No order of the floors stumbles over more than another. -/
theorem stumbles_permuted (h : Stumbles fromisoformat (permuteFloors σ v)) : Stumbles fromisoformat v := by
  obtain ⟨opened', hopen, h⟩ := h
  rw [openDocument_permuteFloors] at hopen
  cases hv : openDocument v with
  | error e =>
    rw [hv] at hopen
    cases hopen
  | ok opened =>
    rw [hv] at hopen
    cases hopen
    refine ⟨opened, hv, ?_⟩
    simp only [Opened.permuted, List.mem_map, forall_exists_index, and_imp, forall_apply_eq_imp_iff₂, exists_exists_and_eq_and,
      floorStumbles_permuteList, parseFloors_permuteList_iff] at h
    refine h.imp (fun ⟨e, he, hstumbles⟩ => ⟨e, he, eventStumbles_permuted hstumbles⟩) fun ⟨hpass, hrest⟩ => ⟨fun e he => ?_, hrest⟩
    obtain ⟨newValues, hnew⟩ := hpass e he
    obtain ⟨newValues', hpasses, -⟩ := eventPasses_of_permuted hnew
    exact ⟨newValues', hpasses⟩

theorem answer_opened (h : openDocument v = .ok opened) :
    object opened.answerDocument "answer thresholds" ANSWER_FIELDS = .ok opened.answer := by
  obtain ⟨d, answer, calibration, -, -, ha, -, -, n, items, -, -, rfl⟩ := openDocument_ok.mp h
  exact ha

/-- What the loader compares an event with. -/
theorem snapshot_active (h : openDocument v = .ok opened) {a : ScoreThreshold × ScoreThreshold} {fs : List LayerSliceThreshold}
    (ha : answerValues opened.answer = .ok a) (hfs : floorsInOrder opened.sliceFloors = .ok fs) :
    Snapshot (activeValues opened.answerDocument opened.sliceFloors) a fs :=
  ⟨"", "answer thresholds", _, opened.answer, object_ok.mpr ⟨_, rfl, by decide, by decide⟩, answer_opened h, ha, hfs⟩

/-- A binding event lists the floors of the document, in the same order. -/
theorem bindsEvent_iff : BindsEvent fromisoformat v ↔ ∃ opened e newValues a, ∃ g : Fin 9 → LayerSliceThreshold,
    openDocument v = .ok opened ∧ opened.events = [e] ∧ EventPasses fromisoformat e newValues ∧
      answerValues opened.answer = .ok a ∧ floorsInOrder opened.sliceFloors = .ok (List.ofFn g) ∧
      coversPairs (List.ofFn g) = true ∧ Snapshot newValues a (List.ofFn g) := by
  constructor
  · rintro ⟨opened, e, newValues, hopen, hevents, hpass, ⟨_, hfs⟩, ⟨a, ha⟩, hequal⟩
    obtain ⟨gs, hgs, hcovers, -⟩ := parseFloors_ok.mp hfs
    obtain ⟨n, items, hlist, g, hg, rfl⟩ := floorsInOrder_ok.mp hgs
    obtain rfl := length_covered hcovers
    have ⟨_, _, _, _, hnew⟩ := hpass
    obtain ⟨b, fs, hsnapshot, -⟩ := thresholdSnapshot_ok hnew
    obtain ⟨rfl, rfl⟩ := (equals_iff_snapshot hsnapshot (snapshot_active hopen ha hgs)).mp hequal
    exact ⟨opened, e, newValues, b, g, hopen, hevents, hpass, ha, hgs, hcovers, hsnapshot⟩
  · rintro ⟨opened, e, newValues, a, g, hopen, hevents, hpass, ha, hgs, hcovers, hsnapshot⟩
    refine ⟨opened, e, newValues, hopen, hevents, hpass, ⟨_, parseFloors_ok.mpr ⟨_, hgs, hcovers, rfl⟩⟩, ⟨a, ha⟩, ?_⟩
    exact (equals_iff_snapshot hsnapshot (snapshot_active hopen ha hgs)).mpr ⟨rfl, rfl⟩

theorem atKey_inv {key : String} {f g : Decoded → Decoded} (h : ∀ w, f (g w) = w) : atKey key f (atKey key g v) = v := by
  cases v with
  | dict keys values =>
    simp only [atKey, Decoded.dict.injEq, true_and]
    funext k
    split_ifs <;> simp [h]
  | _ => rfl

theorem atKey_comm {key key' : String} {f g : Decoded → Decoded} (hne : key ≠ key') :
    atKey key f (atKey key' g v) = atKey key' g (atKey key f v) := by
  cases v with
  | dict keys values =>
    simp only [atKey, Decoded.dict.injEq, true_and]
    funext k
    by_cases hk : k = Str.ofString key
    · simp [hk, Str.ofString_injective.eq_iff, hne]
    · simp [hk]
  | _ => rfl

/-- The inverse orders restore a document. -/
theorem permuteFloors_inv : permuteFloors (fun n => (σ n)⁻¹) (permuteFloors σ v) = v := by
  have hevent {w : Decoded} : permuteEvent (fun n => (σ n)⁻¹) (permuteEvent σ w) = w :=
    atKey_inv fun _ => atKey_inv fun _ => permuteList_inv
  have hitems {w : Decoded} : mapItems (permuteEvent fun n => (σ n)⁻¹) (mapItems (permuteEvent σ) w) = w := by
    cases w with
    | list n items =>
      simp only [mapItems, Decoded.list.injEq, heq_eq_eq, true_and]
      funext i
      exact hevent
    | _ => rfl
  simp only [permuteFloors]
  rw [atKey_comm (by decide), atKey_inv fun _ => permuteList_inv, atKey_inv fun _ => atKey_inv fun _ => hitems]

/-- A new order of a list, read in that order. -/
theorem floorsInOrder_permuted {n : Nat} {g : Fin n → LayerSliceThreshold} (h : floorsInOrder v = .ok (List.ofFn g)) :
    floorsInOrder (permuteList σ v) = .ok (List.ofFn (g ∘ σ n)) := by
  obtain ⟨n', items, rfl, g', hg, heq⟩ := floorsInOrder_ok.mp h
  obtain ⟨rfl, hg'⟩ := Sigma.mk.inj_iff.mp (List.ofFn_inj'.mp heq)
  obtain rfl := eq_of_heq hg'
  exact floorsInOrder_permuteList hg

theorem bindsEvent_permuted (h : BindsEvent fromisoformat v) : BindsEvent fromisoformat (permuteFloors σ v) := by
  obtain ⟨opened, e, newValues, a, g, hopen, hevents, hpass, ha, hgs, hcovers, hsnapshot⟩ := bindsEvent_iff.mp h
  refine bindsEvent_iff.mpr ⟨opened.permuted σ, permuteEvent σ e, atKey "sliceFloors" (permuteList σ) newValues, a, g ∘ σ 9, ?_⟩
  refine ⟨?_, ?_, eventPasses_permuted hpass, ha, floorsInOrder_permuted hgs, ?_, hsnapshot.permuted⟩
  · rw [openDocument_permuteFloors, hopen]
    rfl
  · rw [Opened.permuted, hevents]
    rfl
  · exact (coversPairs_perm (Equiv.Perm.ofFn_comp_perm _ _)).trans hcovers

end NewOrder

/-! ## Loading -/

section Sound

variable {fromisoformat : FromIsoformat} {document : Decoded} {authority : SourceAuthority} {opened : Opened}

/-- What the active configuration is made of. -/
theorem activeConfiguration_ok {events : List CalibrationEvent} {c : Configuration} :
    activeConfiguration opened events authority = .ok c ↔
      ∃ fs a, parseFloors opened.sliceFloors = .ok fs ∧ answerValues opened.answer = .ok a ∧
        (hasConfiguredValue a fs && events.isEmpty) = false ∧
        events.getLast?.all (fun event => event.newValues.equals (activeValues opened.answerDocument opened.sliceFloors)) = true ∧
        c = ⟨a.1, a.2, fs, events, authority⟩ := by
  simp only [activeConfiguration, bind_ok]
  constructor
  · rintro ⟨fs, hfs, a, ha, _, hconfigured, _, hbinds, h⟩
    exact ⟨fs, a, hfs, ha, by simpa only [Bool.not_eq_true'] using require_ok.mp hconfigured, require_ok.mp hbinds, (Except.ok.inj h).symm⟩
  · rintro ⟨fs, a, hfs, ha, hconfigured, hbinds, rfl⟩
    exact ⟨fs, hfs, a, ha, (), require_ok.mpr (by simp [hconfigured]), (), require_ok.mpr hbinds, rfl⟩

theorem clean_loadConfiguration (h : ¬Stumbles fromisoformat document) :
    Clean (loadConfiguration fromisoformat (some document) authority) := by
  refine clean_openDocument.bind fun opened hopen => Clean.bind ?_ fun events hevents => ?_
  · refine Clean.mapM fun e he => clean_calibrationEvent fun hstumbles => h ⟨opened, hopen, .inl ⟨e, he, hstumbles⟩⟩
  · have hpass : ∀ e ∈ opened.events, ∃ newValues, EventPasses fromisoformat e newValues := by
      intro e he
      rcases openDocument_events hopen with hnone | ⟨e', hone⟩
      · simp [hnone] at he
      · obtain rfl : e = e' := by simpa [hone] using he
        rw [hone, List.mapM_cons] at hevents
        obtain ⟨ev, hev, -⟩ := bind_ok.mp hevents
        exact ⟨_, eventPasses_of_ok hev⟩
    refine (clean_parseFloors fun hstumbles => h ⟨opened, hopen, .inr ⟨hpass, .inl hstumbles⟩⟩).bind fun fs hfs => ?_
    refine Clean.bind ?_ fun a _ => (clean_require _ _).bind fun _ _ => (clean_require _ _).bind fun _ _ => clean_ok _
    by_contra hstumbles
    exact h ⟨opened, hopen, .inr ⟨hpass, .inr ⟨⟨fs, hfs⟩, not_clean_answerValues.mp hstumbles⟩⟩⟩

/-- A document that records an event and does not bind it is refused. -/
theorem refused_event (h : ¬Stumbles fromisoformat document) (hbinds : ¬BindsEvent fromisoformat document)
    (hopen : openDocument document = .ok opened) {e : Decoded} (hevents : opened.events = [e]) :
    ∃ message, loadConfiguration fromisoformat (some document) authority = .error (.valueError message) := by
  cases hload : loadConfiguration fromisoformat (some document) authority with
  | error e =>
    obtain ⟨message, rfl⟩ := clean_loadConfiguration h e hload
    exact ⟨message, rfl⟩
  | ok c =>
    refine absurd ?_ hbinds
    simp only [loadConfiguration, hopen, ok_bind, hevents, List.mapM_cons, List.mapM_nil] at hload
    obtain ⟨events, hmap, hactive⟩ := bind_ok.mp hload
    obtain ⟨ev, hev, hrest⟩ := bind_ok.mp hmap
    obtain rfl := Except.ok.inj hrest
    obtain ⟨fs, a, hfs, ha, -, hequal, -⟩ := activeConfiguration_ok.mp hactive
    exact ⟨opened, e, ev.newValues, hopen, hevents, eventPasses_of_ok hev, ⟨fs, hfs⟩, ⟨a, ha⟩, by simpa using hequal⟩

theorem construct_refused {c : Configuration} {e : Raised} (h : c.validate fromisoformat = .error e) :
    construct fromisoformat c = .error e := by
  unfold construct
  split
  next heq =>
    rw [h] at heq
    cases heq
  next heq => exact congrArg Except.error (Except.error.inj (heq.symm.trans h))

/-- Without an event the constructor accepts what the loader's checks let through. -/
theorem construct_unrecorded {c : Configuration} (hopen : openDocument document = .ok opened) (hevents : opened.events = [])
    (h : loadConfiguration fromisoformat (some document) authority = .ok c) : ∃ t, construct fromisoformat c = .ok t := by
  simp only [loadConfiguration, hopen, ok_bind, hevents, List.mapM_nil] at h
  obtain ⟨fs, a, hfs, -, hconfigured, -, rfl⟩ := activeConfiguration_ok.mp h
  obtain ⟨gs, -, hcovers, rfl⟩ := parseFloors_ok.mp hfs
  obtain ⟨hcovers', hsorted⟩ := sortedBy_rank_covers hcovers
  have hshape : (coversPairs (sortedBy (·.rank) gs) &&
      decide (sortedBy (·.rank) gs = sortedBy (·.rank) (sortedBy (·.rank) gs)) && decide (([] : List CalibrationEvent).length ≤ 1)) = true := by
    simp [hcovers', hsorted]
  have hvalid : Configuration.validate fromisoformat ⟨a.1, a.2, sortedBy (·.rank) gs, [], authority⟩ = .ok () := by
    have hkeep : (!(hasConfiguredValue a (sortedBy (·.rank) gs) && ([] : List CalibrationEvent).isEmpty)) = true := by
      rw [hconfigured]
      rfl
    simp only [Configuration.validate, List.mapM_nil, requireShape, if_pos hshape]
    simp only [pure, Except.pure, ok_bind, if_pos hkeep]
    rfl
  refine ⟨⟨_, hvalid⟩, ?_⟩
  unfold construct
  split
  · rfl
  next e he => rw [hvalid] at he; cases he

/-- A refusal with ValueError looks the same whatever its message. -/
theorem mapError_refused {α : Type} {x y : Except Raised α} (hx : ∃ message, x = .error (.valueError message))
    (hy : ∃ message, y = .error (.valueError message)) : x.mapError Raised.failure = y.mapError Raised.failure := by
  obtain ⟨_, rfl⟩ := hx
  obtain ⟨_, rfl⟩ := hy
  rfl

theorem refused_load (h : ∃ message, loadConfiguration fromisoformat (some document) authority = .error (.valueError message)) :
    ∃ message, loadThresholds fromisoformat (some document) authority = .error (.valueError message) := by
  obtain ⟨message, h⟩ := h
  exact ⟨message, by rw [loadThresholds, h]; rfl⟩

/-- Without an event the order of the floors is sorted away. -/
theorem permuted_unrecorded {σ : Orders} (h : ¬Stumbles fromisoformat document) (hopen : openDocument document = .ok opened)
    (hevents : opened.events = []) : (loadThresholds fromisoformat (some (permuteFloors σ document)) authority).mapError Raised.failure =
      (loadThresholds fromisoformat (some document) authority).mapError Raised.failure := by
  have hopen' : openDocument (permuteFloors σ document) = .ok (opened.permuted σ) := by
    rw [openDocument_permuteFloors, hopen]
    rfl
  have hload : loadConfiguration fromisoformat (some document) authority = activeConfiguration opened [] authority := by
    simp only [loadConfiguration, hopen, ok_bind, hevents, List.mapM_nil]
    rfl
  have hload' : loadConfiguration fromisoformat (some (permuteFloors σ document)) authority =
      activeConfiguration (opened.permuted σ) [] authority := by
    simp only [loadConfiguration, hopen', ok_bind, Opened.permuted, hevents, List.map_nil, List.mapM_nil]
    rfl
  have hfloors : ¬FloorStumbles opened.sliceFloors := by
    intro hstumbles
    exact h ⟨opened, hopen, .inr ⟨by simp [hevents], .inl hstumbles⟩⟩
  cases hparse : parseFloors opened.sliceFloors with
  | ok fs =>
    have hparse' : parseFloors (opened.permuted σ).sliceFloors = .ok fs := parseFloors_permuteList hparse
    have hsame : activeConfiguration (opened.permuted σ) [] authority = activeConfiguration opened [] authority := by
      simp only [activeConfiguration, hparse, hparse', ok_bind, List.getLast?_nil, Option.all_none]
      rfl
    rw [loadThresholds, loadThresholds, hload, hload', hsame]
  | error e =>
    have hrefused {o : Opened} (hclean : Clean (parseFloors o.sliceFloors)) (hne : ∀ fs, parseFloors o.sliceFloors ≠ .ok fs) :
        ∃ message, activeConfiguration o [] authority = .error (.valueError message) := by
      cases hp : parseFloors o.sliceFloors with
      | ok fs => exact absurd hp (hne fs)
      | error e =>
        obtain ⟨message, rfl⟩ := hclean e hp
        exact ⟨message, by rw [activeConfiguration, hp]; rfl⟩
    refine mapError_refused (refused_load (hload' ▸ hrefused ?_ ?_)) (refused_load (hload ▸ hrefused ?_ ?_))
    · exact clean_parseFloors fun hstumbles => hfloors (floorStumbles_permuteList.mp hstumbles)
    · intro fs hfs
      rw [parseFloors_permuteList_iff.mp hfs] at hparse
      cases hparse
    · exact clean_parseFloors hfloors
    · intro fs hfs
      rw [hfs] at hparse
      cases hparse

/-- What neither stumbles nor binds an event loads soundly. -/
theorem loadsSoundly_of (h : ¬Stumbles fromisoformat document) (hbinds : ¬BindsEvent fromisoformat document) :
    LoadsSoundly fromisoformat (some document) authority := by
  have hunbound {σ : Orders} : ¬BindsEvent fromisoformat (permuteFloors σ document) := by
    intro hbinds'
    have := bindsEvent_permuted (σ := fun n => (σ n)⁻¹) hbinds'
    rw [permuteFloors_inv] at this
    exact hbinds this
  cases hopen : openDocument document with
  | error e =>
    obtain ⟨message, rfl⟩ := clean_openDocument e hopen
    have hload : loadConfiguration fromisoformat (some document) authority = .error (.valueError message) := by
      rw [loadConfiguration, hopen]
      rfl
    refine ⟨?_, ?_, fun σ => mapError_refused (refused_load ⟨message, ?_⟩) (refused_load ⟨_, hload⟩)⟩
    · obtain ⟨message', h'⟩ := refused_load ⟨_, hload⟩
      rw [h']
      exact clean_valueError _
    · intro c hc
      rw [hload] at hc
      cases hc
    · rw [loadConfiguration, openDocument_permuteFloors, hopen]
      rfl
  | ok opened =>
    rcases openDocument_events hopen with hnone | ⟨e, hone⟩
    · refine ⟨?_, fun c hc => construct_unrecorded hopen hnone hc, fun σ => permuted_unrecorded h hopen hnone⟩
      refine (clean_loadConfiguration h).bind fun c hc => ?_
      obtain ⟨t, ht⟩ := construct_unrecorded hopen hnone hc
      rw [ht]
      exact clean_ok _
    · have hrefused : ∃ message, loadConfiguration fromisoformat (some document) authority = .error (.valueError message) :=
        refused_event h hbinds hopen hone
      refine ⟨?_, ?_, fun σ => mapError_refused (refused_load ?_) (refused_load hrefused)⟩
      · obtain ⟨message, hload⟩ := refused_load hrefused
        rw [hload]
        exact clean_valueError _
      · intro c hc
        obtain ⟨message, hload⟩ := hrefused
        rw [hload] at hc
        cases hc
      · have hopen' : openDocument (permuteFloors σ document) = .ok (opened.permuted σ) := by
          rw [openDocument_permuteFloors, hopen]
          rfl
        exact refused_event (fun hstumbles => h (stumbles_permuted hstumbles)) hunbound hopen' (by rw [Opened.permuted, hone]; rfl)

/-! ### Orders that fail -/

theorem not_clean_event {e : Decoded} (hopen : openDocument document = .ok opened) (hevents : opened.events = [e])
    (h : ¬Clean (calibrationEvent fromisoformat e)) : ¬Clean (loadThresholds fromisoformat (some document) authority) := by
  refine not_clean_bind ?_
  simp only [loadConfiguration, hopen, ok_bind, hevents, List.mapM_cons]
  exact not_clean_bind (not_clean_bind h)

theorem not_clean_active {events : List CalibrationEvent} (hopen : openDocument document = .ok opened)
    (hevents : opened.events.mapM (calibrationEvent fromisoformat) = .ok events)
    (h : ¬Clean (activeConfiguration opened events authority)) : ¬Clean (loadThresholds fromisoformat (some document) authority) := by
  refine not_clean_bind ?_
  simpa only [loadConfiguration, hopen, ok_bind, hevents] using h

theorem not_clean_oldValues {digest : Str} {e oldValues newValues : Decoded}
    (hhead : eventHead fromisoformat e = .ok (digest, oldValues, newValues))
    (h : ¬Clean (thresholdSnapshot oldValues "threshold calibration old values")) : ¬Clean (calibrationEvent fromisoformat e) := by
  simp only [calibrationEvent, hhead, ok_bind]
  exact not_clean_bind h

theorem not_clean_newValues {digest : Str} {e oldValues newValues : Decoded}
    (hhead : eventHead fromisoformat e = .ok (digest, oldValues, newValues))
    (hold : thresholdSnapshot oldValues "threshold calibration old values" = .ok ())
    (h : ¬Clean (thresholdSnapshot newValues "threshold calibration new values")) : ¬Clean (calibrationEvent fromisoformat e) := by
  simp only [calibrationEvent, hhead, ok_bind, hold]
  exact not_clean_bind h

/-- An event that passes is accepted in every order but one. -/
theorem event_ordered {e newValues : Decoded} (h : EventPasses fromisoformat e newValues) :
    ∃ (fo : List LayerSliceThreshold) (a : ScoreThreshold × ScoreThreshold) (g : Fin 9 → LayerSliceThreshold),
      coversPairs (List.ofFn g) = true ∧ Snapshot newValues a (List.ofFn g) ∧
      ∀ σ : Orders, List.ofFn (g ∘ σ 9) ≠ fo → ∃ ev, calibrationEvent fromisoformat (permuteEvent σ e) = .ok ev ∧
        ev.document = permuteEvent σ e ∧ ev.newValues = atKey "sliceFloors" (permuteList σ) newValues := by
  obtain ⟨digest, oldValues, hhead, hold, hnew⟩ := h
  obtain ⟨ao, fo, hsnapshot, -⟩ := thresholdSnapshot_ok hold
  obtain ⟨a, fs, hsnapshot', hcovers⟩ := thresholdSnapshot_ok hnew
  obtain ⟨g, rfl⟩ := exists_ofFn hcovers
  refine ⟨fo, a, g, hcovers, hsnapshot', fun σ hne => ?_⟩
  refine ⟨⟨permuteEvent σ e, digest, atKey "sliceFloors" (permuteList σ) newValues⟩, calibrationEvent_ok.mpr ?_, rfl, rfl⟩
  refine ⟨oldValues, ?_, rfl, hold, thresholdSnapshot_permuted.mpr hnew, ?_⟩
  · rw [eventHead_permuteEvent, hhead]
    rfl
  · rw [← Bool.not_eq_true, equals_iff_snapshot hsnapshot hsnapshot'.permuted]
    exact fun heq => hne heq.2.symm

theorem openDocument_permuted {σ : Orders} (hopen : openDocument document = .ok opened) :
    openDocument (permuteFloors σ document) = .ok (opened.permuted σ) := by
  rw [openDocument_permuteFloors, hopen]
  rfl

/-- A document that stumbles does so in some order. -/
theorem stumbling_order (h : Stumbles fromisoformat document) :
    ∃ σ, ¬Clean (loadThresholds fromisoformat (some (permuteFloors σ document)) authority) := by
  obtain ⟨opened, hopen, ⟨e, he, digest, oldValues, newValues, hhead, hstumbles⟩ | ⟨hpass, hstumbles⟩⟩ := h
  · -- the event stumbles: its old values in any order, its new ones when the floor comes first
    have hone : opened.events = [e] := by
      rcases openDocument_events hopen with hnone | ⟨e', hone⟩
      · simp [hnone] at he
      · obtain rfl : e = e' := by simpa [hone] using he
        exact hone
    have hevents (σ : Orders) : (opened.permuted σ).events = [permuteEvent σ e] := by
      rw [Opened.permuted, hone]
      rfl
    have hhead' (σ : Orders) : eventHead fromisoformat (permuteEvent σ e) =
        .ok (digest, oldValues, atKey "sliceFloors" (permuteList σ) newValues) := by
      rw [eventHead_permuteEvent, hhead]
      rfl
    rcases hstumbles with hold | ⟨hold, name, name', d, answer, hd, ha, hstumbles⟩
    · exact ⟨fun _ => 1, not_clean_event (openDocument_permuted hopen) (hevents _) (not_clean_oldValues (hhead' _) (not_clean_thresholdSnapshot.mpr hold))⟩
    · have hobject (σ : Orders) : object (atKey "sliceFloors" (permuteList σ) newValues) "threshold calibration new values"
          ["answer", "sliceFloors"] = .ok fun k => if k = Str.ofString "sliceFloors" then permuteList σ (d k) else d k :=
        object_permuted_ok.mpr ⟨d, object_renamed hd, rfl⟩
      have hanswer : object (d.get "answer") ("threshold calibration new values" ++ " answer") ANSWER_FIELDS = .ok answer :=
        object_renamed ha
      rcases hstumbles with hvalues | ⟨⟨a, hvalues⟩, n, items, hlist, i, hi⟩
      · refine ⟨fun _ => 1, not_clean_event (openDocument_permuted hopen) (hevents _) (not_clean_newValues (hhead' _) hold ?_)⟩
        simp only [thresholdSnapshot, hobject, ok_bind, get_changed, String.reduceEq, if_false, hanswer]
        exact not_clean_bind (not_clean_answerValues.mpr hvalues)
      · refine ⟨front i.val, not_clean_event (openDocument_permuted hopen) (hevents _) (not_clean_newValues (hhead' _) hold ?_)⟩
        simp only [thresholdSnapshot, hobject, ok_bind, get_changed, String.reduceEq, if_false, if_true, hanswer, hvalues, hlist]
        exact not_clean_bind (not_clean_front (not_clean_parseFloor.mpr hi) (front_zero i))
  · -- the events pass; their order is chosen so that they do, with the floor in front
    have horder (P : Orders → Prop) (hfree : ∃ σ, P σ)
        (hchoice : ∀ {g : Fin 9 → LayerSliceThreshold}, coversPairs (List.ofFn g) = true → ∀ fo, ∃ σ, P σ ∧ List.ofFn (g ∘ σ 9) ≠ fo) :
        ∃ σ events, P σ ∧ (opened.permuted σ).events.mapM (calibrationEvent fromisoformat) = .ok events := by
      rcases openDocument_events hopen with hnone | ⟨e, hone⟩
      · obtain ⟨σ, hσ⟩ := hfree
        refine ⟨σ, [], hσ, ?_⟩
        rw [Opened.permuted, hnone]
        rfl
      · obtain ⟨newValues, hnew⟩ := hpass e (by simp [hone])
        obtain ⟨fo, a, g, hcovers, -, haccepted⟩ := event_ordered hnew
        obtain ⟨σ, hσ, hne⟩ := hchoice hcovers fo
        obtain ⟨ev, hev, -, -⟩ := haccepted σ hne
        refine ⟨σ, [ev], hσ, ?_⟩
        simp only [Opened.permuted, hone, List.map_cons, List.map_nil, List.mapM_cons, List.mapM_nil, hev]
        rfl
    rcases hstumbles with ⟨n, items, hlist, i, hi⟩ | ⟨⟨fs, hfs⟩, hvalues⟩
    · obtain ⟨σ, events, hσ, hevents⟩ := horder (fun σ => σ n ⟨0, i.pos⟩ = i) ⟨front i.val, front_zero i⟩
        fun hcovers fo => exists_front i hcovers fo
      refine ⟨σ, not_clean_active (openDocument_permuted hopen) hevents (not_clean_bind ?_)⟩
      simp only [Opened.permuted, hlist]
      exact not_clean_front (not_clean_parseFloor.mpr hi) hσ
    · obtain ⟨σ, events, -, hevents⟩ := horder (fun _ => True) ⟨fun _ => 1, trivial⟩ fun hcovers fo => by
        obtain ⟨σ, hne, -⟩ := exists_order hcovers fo fo
        exact ⟨σ, trivial, hne⟩
      refine ⟨σ, not_clean_active (openDocument_permuted hopen) hevents ?_⟩
      simp only [activeConfiguration, Opened.permuted, parseFloors_permuteList hfs, ok_bind]
      exact not_clean_bind (not_clean_answerValues.mpr hvalues)

/-- A document that binds an event is refused by the constructor in some order. -/
theorem binding_order (h : BindsEvent fromisoformat document) :
    ∃ σ, ¬Clean (loadThresholds fromisoformat (some (permuteFloors σ document)) authority) := by
  obtain ⟨opened, e, newValues, a, g, hopen, hevents, hpass, ha, hgs, hcovers, hsnapshot⟩ := bindsEvent_iff.mp h
  obtain ⟨fo, a', g', -, hsnapshot', haccepted⟩ := event_ordered hpass
  obtain rfl : g = g' := by
    have hsame := (equals_iff_snapshot hsnapshot hsnapshot).mpr ⟨rfl, rfl⟩
    exact List.ofFn_injective ((equals_iff_snapshot hsnapshot hsnapshot').mp hsame).2
  -- neither the order that records no change nor the sorted one
  obtain ⟨σ, hchanged, hunsorted⟩ := exists_order hcovers fo (sortedBy (·.rank) (List.ofFn g))
  obtain ⟨ev, hev, hdocument, hvalues⟩ := haccepted σ hchanged
  have hbound : Snapshot ev.newValues a (List.ofFn (g ∘ σ 9)) := hvalues ▸ hsnapshot.permuted
  have hopen' := openDocument_permuted (σ := σ) hopen
  have hactive := snapshot_active hopen' ha (floorsInOrder_permuted hgs)
  have hconfiguration : loadConfiguration fromisoformat (some (permuteFloors σ document)) authority =
      .ok ⟨a.1, a.2, sortedBy (·.rank) (List.ofFn g), [ev], authority⟩ := by
    have hmap : (opened.permuted σ).events.mapM (calibrationEvent fromisoformat) = .ok [ev] := by
      simp only [Opened.permuted, hevents, List.map_cons, List.map_nil, List.mapM_cons, List.mapM_nil, hev]
      rfl
    simp only [loadConfiguration, hopen', ok_bind, hmap]
    refine activeConfiguration_ok.mpr ⟨_, a, parseFloors_permuteList (parseFloors_ok.mpr ⟨_, hgs, hcovers, rfl⟩), ha, ?_, ?_, rfl⟩
    · simp
    · simpa using (equals_iff_snapshot hbound hactive).mpr ⟨rfl, rfl⟩
  -- the constructor compares the event with the sorted floors
  have hdiffer : ev.newValues.equals (Configuration.mk a.1 a.2 (sortedBy (·.rank) (List.ofFn g)) [ev] authority).activeValues = false := by
    rw [← Bool.not_eq_true, equals_iff_snapshot hbound (snapshot_activeValues _)]
    exact fun heq => hunsorted heq.2
  have hagain : [ev].mapM (eventAgain fromisoformat) = .ok [ev] := by
    have : eventAgain fromisoformat ev = .ok ev := by
      unfold eventAgain
      rw [hdocument, hev]
    simp only [List.mapM_cons, List.mapM_nil, this]
    rfl
  obtain ⟨hcoversSorted, hsorted⟩ := sortedBy_rank_covers hcovers
  refine ⟨σ, fun hclean => ?_⟩
  have hrefused : loadThresholds fromisoformat (some (permuteFloors σ document)) authority =
      .error (.typeError "evaluation thresholds are malformed") := by
    rw [loadThresholds, hconfiguration, ok_bind]
    refine construct_refused ?_
    have hshape : (coversPairs (sortedBy (·.rank) (List.ofFn g)) &&
        decide (sortedBy (·.rank) (List.ofFn g) = sortedBy (·.rank) (sortedBy (·.rank) (List.ofFn g))) &&
          decide ([ev].length ≤ 1)) = true := by
      rw [hcoversSorted, hsorted]
      simp
    have hlast : ([ev].getLast?.all fun event => event.newValues.equals
        (Configuration.mk a.1 a.2 (sortedBy (·.rank) (List.ofFn g)) [ev] authority).activeValues) = false := by
      simpa using hdiffer
    simp only [Configuration.validate, requireShape, if_pos hshape, ok_bind, hagain, List.isEmpty_cons, Bool.and_false,
      Bool.not_false, if_true, hlast]
    rfl
  obtain ⟨message, hmessage⟩ := hclean _ hrefused
  cases hmessage

/-! ### An event that binds floors out of order -/

/-- Floors in the order in which the source lists the pairs. -/
def calibratedFloors (cases : CountThreshold) : List LayerSliceThreshold := expectedPairs.map fun p => ⟨p.1, p.2, cases, .pending⟩

def calibratedAnswer : Decoded := .dict (ANSWER_FIELDS.map Str.ofString) fun _ => ScoreThreshold.pending.document

def calibratedValues (cases : CountThreshold) : Decoded :=
  activeValues calibratedAnswer (listOf ((calibratedFloors cases).map (·.document)))

/-- A maintainer's event: nine floors of five cases each. -/
def maintainerEvent : Decoded :=
  .dict (EVENT_FIELDS.map Str.ofString) fun k =>
    if k = Str.ofString "authority" then .str (Str.ofString "maintainer")
    else if k = Str.ofString "newValues" then calibratedValues (.configured ⟨5, by decide⟩)
    else if k = Str.ofString "oldValues" then calibratedValues .pending
    else if k = Str.ofString "pilotDigest" then .str (List.replicate 64 (Str.ofChar 'a'))
    else if k = Str.ofString "reason" then .str (Str.ofString "pilot")
    else .str (Str.ofString "2026-01-01T00:00:00Z")

def calibratedDocument : Decoded :=
  .dict (["answer", "calibration", "schemaVersion", "sliceFloors"].map Str.ofString) fun k =>
    if k = Str.ofString "answer" then calibratedAnswer
    else if k = Str.ofString "calibration" then
      .dict (["maximumRecordedEvents", "recordedEvents"].map Str.ofString) fun k =>
        if k = Str.ofString "maximumRecordedEvents" then .int 1 else listOf [maintainerEvent]
    else if k = Str.ofString "schemaVersion" then .str (Str.ofString "context-engine-eval-thresholds-v1")
    else listOf ((calibratedFloors (.configured ⟨5, by decide⟩)).map (·.document))

def newYear : FromIsoformat := fun s => if s = Str.ofString "2026-01-01T00:00:00+00:00" then some (some 0) else none

def failureOf {α : Type} : Except Raised α → Option Failure
  | .ok _ => none
  | .error e => some e.failure

/-- The loader's checks accept the document, and the constructor raises TypeError. -/
theorem loadsSoundly_unsorted :
    failureOf (loadConfiguration newYear (some calibratedDocument) .tracked) = none ∧
      failureOf (loadThresholds newYear (some calibratedDocument) .tracked) = some .typeError ∧
      ¬LoadsSoundly newYear (some calibratedDocument) .tracked := by
  have hload : failureOf (loadThresholds newYear (some calibratedDocument) .tracked) = some .typeError := by
    decide +kernel
  refine ⟨by decide +kernel, hload, fun h => ?_⟩
  cases hresult : loadThresholds newYear (some calibratedDocument) .tracked with
  | ok t => simp [hresult, failureOf] at hload
  | error e =>
    obtain ⟨message, rfl⟩ := h.clean e hresult
    simp [hresult, failureOf, Raised.failure] at hload

/-- **Loading is sound exactly off two kinds of documents**: those where a field that is read
    has no hash or no float, and those that record a calibration event for their values. -/
theorem loadsSoundly_iff (document : Option Decoded) :
    LoadsSoundly fromisoformat document authority ↔
      ∀ d, document = some d → ¬Stumbles fromisoformat d ∧ ¬BindsEvent fromisoformat d := by
  cases document with
  | none =>
    constructor
    · intro _ d hd
      cases hd
    · intro _
      refine ⟨clean_valueError _, fun c hc => ?_, fun σ => rfl⟩
      cases hc
  | some document =>
    constructor
    · intro h d hd
      obtain rfl := Option.some.inj hd
      have hclean : ∀ σ, Clean (loadThresholds fromisoformat (some (permuteFloors σ document)) authority) := by
        intro σ e he
        have hsame := h.permuted σ
        rw [Option.map_some, he] at hsame
        cases hload : loadThresholds fromisoformat (some document) authority with
        | ok t =>
          rw [hload] at hsame
          cases hsame
        | error e' =>
          obtain ⟨message, rfl⟩ := h.clean e' hload
          rw [hload] at hsame
          cases e with
          | valueError message => exact ⟨message, rfl⟩
          | typeError _ => cases hsame
          | overflowError => cases hsame
      constructor
      · intro hstumbles
        obtain ⟨σ, hσ⟩ : ∃ σ, ¬Clean (loadThresholds fromisoformat (some (permuteFloors σ document)) authority) :=
          stumbling_order hstumbles
        exact hσ (hclean σ)
      · intro hbinds
        obtain ⟨σ, hσ⟩ : ∃ σ, ¬Clean (loadThresholds fromisoformat (some (permuteFloors σ document)) authority) :=
          binding_order hbinds
        exact hσ (hclean σ)
    · intro h
      obtain ⟨hstumbles, hbinds⟩ := h document rfl
      exact loadsSoundly_of hstumbles hbinds

end Sound

end ContextEngine.Learning.Thresholds
