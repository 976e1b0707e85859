/-
  ContextEngine.Learning.ReleasePromotionProofs — promotions form one unbroken chain.

  Proved:
  (1) `Chain`: from no pointer and no audit, each promotion adds the row after the last one
      and moves the pointer to it. Generations, bases and the pointer follow by induction
      (`Chain.generations`, `Chain.bases`, `Chain.pointer_last`).
  (2) One statement of the function keeps what its transaction knows (`nextStatement_coherent`):
      the chain as the transaction sees it and, past each check, what was checked.
  (3) One step keeps the invariant (`step_inv`): only the holder of the advisory lock has
      written anything or is past the lock, so what it read stays as it read it.
  (4) Every run of any number of sessions (`promotions_form_one_chain`).
-/

import ContextEngine.Learning.ReleasePromotion

namespace ContextEngine.Learning

open ContextEngine.Python ContextEngine.Postgres ContextEngine.Machine

/-! ## The chain -/

def generationOf (pointer : Option ActivePointer) : Nat := (pointer.map (·.activeGeneration)).getD 0

/-- The pointer that a promotion leaves behind. -/
structure PointsAt (p : ActivePointer) (a : AuditRow) : Prop where
  activeGeneration : p.activeGeneration = a.activeGeneration
  manifestRef : p.manifestRef = a.manifestRef
  manifestDigest : p.manifestDigest = a.manifestDigest
  promotionRef : p.promotionRef = a.promotionRef

/-- The row expects `pointer`, and is the next generation. -/
structure Follows (a : AuditRow) (pointer : Option ActivePointer) : Prop where
  expected : a.expectedActiveGeneration = generationOf pointer
  base : a.expectedBaseManifestDigest = pointer.map (·.manifestDigest)
  next : a.activeGeneration = a.expectedActiveGeneration + 1

inductive Chain : Option ActivePointer → List AuditRow → Prop where
  | empty : Chain none []
  | promote {pointer : Option ActivePointer} {audit : List AuditRow} {a : AuditRow} {p : ActivePointer} :
    Chain pointer audit → Follows a pointer → PointsAt p a → Chain (some p) (audit ++ [a])

section Chain

variable {pointer : Option ActivePointer} {audit : List AuditRow}

theorem Chain.generationOf_eq (h : Chain pointer audit) : generationOf pointer = audit.length := by
  induction h with
  | empty => rfl
  | @promote pointer audit a p _ hf hp ih =>
    show p.activeGeneration = _
    rw [hp.activeGeneration, hf.next, hf.expected, ih, List.length_append, List.length_singleton]

theorem Chain.generations (h : Chain pointer audit) :
    audit.map (·.activeGeneration) = List.range' 1 audit.length := by
  induction h with
  | empty => rfl
  | @promote pointer audit a p hc hf hp ih =>
    have hgen : a.activeGeneration = 1 + audit.length := by rw [hf.next, hf.expected, hc.generationOf_eq, Nat.add_comm]
    rw [List.map_append, ih, List.length_append, List.length_singleton, List.range'_1_concat, List.map_singleton, hgen]

theorem Chain.expected (h : Chain pointer audit) :
    audit.map (·.expectedActiveGeneration) = List.range audit.length := by
  induction h with
  | empty => rfl
  | @promote pointer audit a p hc hf hp ih =>
    rw [List.map_append, ih, List.length_append, List.length_singleton, List.range_succ, List.map_singleton, hf.expected,
      hc.generationOf_eq]

theorem Chain.absent_iff (h : Chain pointer audit) : pointer = none ↔ audit = [] := by
  cases h with
  | empty => simp
  | promote _ _ _ => simp

/-- The pointer is where the last promotion left it. -/
theorem Chain.pointer_last (h : Chain pointer audit) {p : ActivePointer} (hp : pointer = some p) :
    ∃ a, audit.getLast? = some a ∧ PointsAt p a := by
  cases h with
  | empty => cases hp
  | @promote _ audit a q _ _ hq =>
    cases hp
    exact ⟨a, List.getLast?_concat, hq⟩

theorem Chain.last_digest (h : Chain pointer audit) :
    pointer.map (·.manifestDigest) = audit.getLast?.map (·.manifestDigest) := by
  cases h with
  | empty => rfl
  | promote _ _ hq => rw [List.getLast?_concat, Option.map_some, Option.map_some, hq.manifestDigest]

/-- The base of each promotion is the manifest of the one before it. -/
theorem Chain.bases (h : Chain pointer audit) (i : Nat) {b : AuditRow} (hb : audit[i]? = some b) :
    b.expectedBaseManifestDigest = (if i = 0 then none else audit[i - 1]?).map (·.manifestDigest) := by
  induction h with
  | empty => simp at hb
  | @promote pointer audit a p hc hf hp ih =>
    rcases Nat.lt_trichotomy i audit.length with hi | hi | hi
    · rw [List.getElem?_append_left hi] at hb
      rw [ih hb, List.getElem?_append_left (by omega)]
    · subst hi
      rw [List.getElem?_concat_length] at hb
      cases hb
      rw [hf.base, hc.last_digest, List.getLast?_eq_getElem?]
      by_cases h0 : audit.length = 0
      · rw [if_pos h0, List.eq_nil_of_length_eq_zero h0]
        rfl
      · rw [if_neg h0, List.getElem?_append_left (by omega)]
    · rw [List.getElem?_eq_none (by simpa using hi)] at hb
      cases hb

end Chain

/-! ## What backs a promotion -/

/-- The candidate and the evaluation that an audit row names are there, and passed. -/
structure Backing (t : Tables) (a : AuditRow) (candidate : ReleaseCandidate) (evaluation : ReleaseEvaluation) : Prop where
  candidateRow : t.candidates a.candidateRef = some candidate
  candidateDigest : candidate.candidateDigest = a.candidateDigest
  evaluationRow : t.evaluations a.evaluationRef = some evaluation
  evaluationDigest : evaluation.evaluationDigest = a.evaluationDigest
  candidateRef : evaluation.candidateRef = a.candidateRef
  manifest : candidate.lineage.manifestDigest = a.manifestDigest ∧ evaluation.lineage.manifestDigest = a.manifestDigest
  passed : candidate.lineage.gates.passed = true ∧ evaluation.lineage.gates.passed = true
  sameEvidence : evaluation.lineage.gates = candidate.lineage.gates
  compatible : evaluation.compatibilityPassed = true

def Backed (t : Tables) (a : AuditRow) : Prop := ∃ candidate evaluation, Backing t a candidate evaluation

/-- Rows are added; none is changed or removed. -/
structure Extends (t' t : Tables) : Prop where
  candidates : ∀ ref row, t.candidates ref = some row → t'.candidates ref = some row
  evaluations : ∀ ref row, t.evaluations ref = some row → t'.evaluations ref = some row

theorem Extends.refl (t : Tables) : Extends t t := ⟨fun _ _ h => h, fun _ _ h => h⟩

theorem Backed.extend {t t' : Tables} {a : AuditRow} (h : Backed t a) (he : Extends t' t) : Backed t' a := by
  obtain ⟨candidate, evaluation, hb⟩ := h
  exact ⟨candidate, evaluation, { hb with
    candidateRow := he.candidates _ _ hb.candidateRow
    evaluationRow := he.evaluations _ _ hb.evaluationRow }⟩

theorem insertNew_extends {ρ : Type} {table : String → Option ρ} {key ref : String} {new row : ρ} (h : table ref = some row) :
    insertNew table key new ref = some row := by
  by_cases hk : (table key).isSome
  · rw [insertNew, if_pos hk, h]
  · have hne : ref ≠ key := by
      rintro rfl
      exact hk (by rw [h]; rfl)
    rw [insertNew, if_neg hk, Function.update_of_ne hne, h]

theorem persistCandidate_spec {t t' : Tables} {manifest : ReleaseManifest} {ref : String} {candidate : ReleaseCandidate}
    (h : persistCandidate t manifest ref candidate = some t') :
    Extends t' t ∧ t'.pointer = t.pointer ∧ t'.audit = t.audit := by
  simp only [persistCandidate, Option.bind_eq_bind, Option.bind_eq_some_iff, Option.guard_eq_some', exists_const,
    Option.some.injEq] at h
  obtain ⟨-, -, -, -, rfl⟩ := h
  exact ⟨⟨fun _ _ h => insertNew_extends h, fun _ _ h => h⟩, rfl, rfl⟩

theorem persistEvaluation_spec {t t' : Tables} {ref : String} {evaluation : ReleaseEvaluation}
    (h : persistEvaluation t ref evaluation = some t') :
    Extends t' t ∧ t'.pointer = t.pointer ∧ t'.audit = t.audit := by
  simp only [persistEvaluation, Option.bind_eq_bind, Option.bind_eq_some_iff, Option.guard_eq_some', exists_const,
    Option.some.injEq] at h
  obtain ⟨-, -, -, -, rfl⟩ := h
  exact ⟨⟨fun _ _ h => h, fun _ _ h => insertNew_extends h⟩, rfl, rfl⟩

/-! ## One statement -/

/-- A chain of backed promotions. -/
structure Sound (t : Tables) (pointer : Option ActivePointer) (audit : List AuditRow) : Prop where
  chain : Chain pointer audit
  backed : ∀ a ∈ audit, Backed t a

/-- The call names this candidate, which passed. -/
structure Nominated (c : PromotionCall) (t : Tables) (candidate : ReleaseCandidate) : Prop where
  candidateRow : t.candidates c.candidateRef = some candidate
  candidateDigest : candidate.candidateDigest = c.candidateDigest
  names : c.names candidate.lineage = true

/-- What a transaction that holds the lock knows in each phase. -/
def Coherent (t : Tables) (txn : Transaction) : Prop :=
  let pointer := txn.pointer.or t.pointer
  let audit := t.audit ++ txn.audit
  match txn.phase with
  | .idle => Sound t pointer audit
  | .waiting _ _ => Sound t pointer audit
  | .locked _ _ => Sound t pointer audit
  | .granted c _ => Sound t pointer audit ∧ 0 ≤ c.expectedActiveGeneration
  | .nominated c _ candidate => Sound t pointer audit ∧ 0 ≤ c.expectedActiveGeneration ∧ Nominated c t candidate
  | .evaluated c at' => Sound t pointer audit ∧ 0 ≤ c.expectedActiveGeneration ∧ Backed t (c.auditRow at')
  | .compared c at' =>
    Sound t pointer audit ∧ 0 ≤ c.expectedActiveGeneration ∧ Backed t (c.auditRow at') ∧ c.expects pointer = true
  | .upserted c at' => ∃ previous, Sound t previous audit ∧ 0 ≤ c.expectedActiveGeneration ∧ Backed t (c.auditRow at') ∧
    c.expects previous = true ∧ txn.pointer = some (c.pointer at')
  | .aborted => True

theorem Sound.extend {t t' : Tables} {pointer : Option ActivePointer} {audit : List AuditRow} (h : Sound t pointer audit)
    (he : Extends t' t) : Sound t' pointer audit := ⟨h.chain, fun a ha => (h.backed a ha).extend he⟩

theorem Coherent.extend {t t' : Tables} {txn : Transaction} (h : Coherent t txn) (he : Extends t' t)
    (hp : t'.pointer = t.pointer) (ha : t'.audit = t.audit) : Coherent t' txn := by
  unfold Coherent at h ⊢
  rw [hp, ha]
  cases hph : txn.phase with
  | aborted => trivial
  | idle | waiting | locked =>
    rw [hph] at h
    exact h.extend he
  | granted c at' =>
    rw [hph] at h
    exact ⟨h.1.extend he, h.2⟩
  | nominated c at' candidate =>
    rw [hph] at h
    exact ⟨h.1.extend he, h.2.1, { h.2.2 with candidateRow := he.candidates _ _ h.2.2.candidateRow }⟩
  | evaluated c at' =>
    rw [hph] at h
    exact ⟨h.1.extend he, h.2.1, h.2.2.extend he⟩
  | compared c at' =>
    rw [hph] at h
    exact ⟨h.1.extend he, h.2.1, h.2.2.1.extend he, h.2.2.2⟩
  | upserted c at' =>
    rw [hph] at h
    obtain ⟨previous, hs, h0, hb, hx⟩ := h
    exact ⟨previous, hs.extend he, h0, hb.extend he, hx⟩

theorem candidate?_spec {c : PromotionCall} {t : Tables} {candidate : ReleaseCandidate} (h : c.candidate? t = some candidate) :
    Nominated c t candidate := by
  obtain ⟨hc, hf⟩ := Option.filter_eq_some_iff.mp h
  rw [Bool.and_eq_true, beq_iff_eq] at hf
  exact ⟨hc, hf.1, hf.2⟩

theorem names_spec {c : PromotionCall} {l : ReleaseLineage} (h : c.names l = true) :
    l.manifestDigest = c.manifestDigest ∧ l.gates.passed = true := by
  simp only [PromotionCall.names, Bool.and_eq_true, beq_iff_eq] at h
  exact ⟨h.1.1.1.2, h.2⟩

/-- An accepted evaluation backs the row that the call writes. -/
theorem evaluated_backed {c : PromotionCall} {t t' : Tables} {candidate : ReleaseCandidate} (hn : Nominated c t candidate)
    (heq : t'.evaluations = t.evaluations) (h : c.evaluated t' candidate = true) (at' : Timestamp) :
    Backed t (c.auditRow at') := by
  obtain ⟨h, -⟩ := Bool.and_eq_true_iff.mp h
  rw [heq] at h
  obtain ⟨e, he, ha⟩ := (Option.any_eq_true _ _).mp h
  simp only [PromotionCall.accepts, Bool.and_eq_true, beq_iff_eq] at ha
  obtain ⟨⟨⟨⟨⟨⟨⟨⟨⟨⟨⟨⟨hd, hr⟩, hcd⟩, hnames⟩, hgates⟩, hcompat⟩, -⟩, -⟩, -⟩, -⟩, -⟩, -⟩, -⟩ := ha
  have hcn := names_spec hn.names
  have hen := names_spec hnames
  exact ⟨candidate, e, hn.candidateRow, hn.candidateDigest, he, hd, hr, ⟨hcn.1, hen.1⟩, ⟨hcn.2, hen.2⟩, hgates, hcompat⟩

theorem wellTimed_nonneg {c : PromotionCall} {at' : Timestamp} (h : c.wellTimed at' = true) : 0 ≤ c.expectedActiveGeneration := by
  simp only [PromotionCall.wellTimed, Bool.and_eq_true, decide_eq_true_eq] at h
  exact h.1.2.1

/-- The row that the call writes comes after the pointer it expects. -/
theorem auditRow_follows {c : PromotionCall} {pointer : Option ActivePointer} (h0 : 0 ≤ c.expectedActiveGeneration)
    (h : c.expects pointer = true) (at' : Timestamp) : Follows (c.auditRow at') pointer := by
  simp only [PromotionCall.expects, Bool.and_eq_true, decide_eq_true_eq] at h
  refine ⟨?_, h.2.symm, ?_⟩
  · show c.expectedActiveGeneration.toNat = generationOf pointer
    rw [← h.1]
    cases pointer with
    | none => rfl
    | some p => exact Int.toNat_natCast _
  · show (c.expectedActiveGeneration + 1).toNat = c.expectedActiveGeneration.toNat + 1
    omega

theorem pointer_pointsAt (c : PromotionCall) (at' : Timestamp) : PointsAt (c.pointer at') (c.auditRow at') := ⟨rfl, rfl, rfl, rfl⟩

/-- One more promotion. -/
theorem Sound.promote {t : Tables} {previous : Option ActivePointer} {audit : List AuditRow} {c : PromotionCall} {at' : Timestamp}
    (h : Sound t previous audit) (h0 : 0 ≤ c.expectedActiveGeneration) (hb : Backed t (c.auditRow at'))
    (hx : c.expects previous = true) : Sound t (some (c.pointer at')) (audit ++ [c.auditRow at']) := by
  refine ⟨.promote h.chain (auditRow_follows h0 hx at') (pointer_pointsAt c at'), ?_⟩
  intro a ha
  rcases List.mem_append.mp ha with ha | ha
  · exact h.backed a ha
  · rw [List.mem_singleton.mp ha]
    exact hb

/-- A statement of the function keeps what its transaction knows. -/
theorem nextStatement_coherent {t : Tables} {txn : Transaction} (h : Coherent t txn) :
    Coherent t (nextStatement (t.seen txn) txn).1 := by
  unfold nextStatement
  cases hph : txn.phase with
  | idle | waiting | aborted => exact h
  | locked c at' =>
    have hs : Sound t (txn.pointer.or t.pointer) (t.audit ++ txn.audit) := by
      simpa only [Coherent, hph] using h
    dsimp only
    by_cases hg : c.wellTimed at' && ((t.seen txn).grants c.authorityRef).any (c.grantedBy at')
    · rw [if_pos hg]
      exact ⟨hs, wellTimed_nonneg (Bool.and_eq_true_iff.mp hg).1⟩
    · rw [if_neg hg]
      trivial
  | granted c at' =>
    have hs : Sound t (txn.pointer.or t.pointer) (t.audit ++ txn.audit) ∧ 0 ≤ c.expectedActiveGeneration := by
      simpa only [Coherent, hph] using h
    dsimp only
    cases hc : c.candidate? (t.seen txn) with
    | none => trivial
    | some candidate =>
      have hn := candidate?_spec hc
      exact ⟨hs.1, hs.2, hn.candidateRow, hn.candidateDigest, hn.names⟩
  | nominated c at' candidate =>
    have hs : Sound t (txn.pointer.or t.pointer) (t.audit ++ txn.audit) ∧ 0 ≤ c.expectedActiveGeneration ∧
        Nominated c t candidate := by
      simpa only [Coherent, hph] using h
    dsimp only
    by_cases he : c.evaluated (t.seen txn) candidate
    · rw [if_pos he]
      exact ⟨hs.1, hs.2.1, evaluated_backed hs.2.2 rfl he at'⟩
    · rw [if_neg he]
      trivial
  | evaluated c at' =>
    have hs : Sound t (txn.pointer.or t.pointer) (t.audit ++ txn.audit) ∧ 0 ≤ c.expectedActiveGeneration ∧
        Backed t (c.auditRow at') := by
      simpa only [Coherent, hph] using h
    dsimp only
    by_cases he : c.expects (t.seen txn).pointer
    · rw [if_pos he]
      exact ⟨hs.1, hs.2.1, hs.2.2, he⟩
    · rw [if_neg he]
      trivial
  | compared c at' =>
    have hs : Sound t (txn.pointer.or t.pointer) (t.audit ++ txn.audit) ∧ 0 ≤ c.expectedActiveGeneration ∧
        Backed t (c.auditRow at') ∧ c.expects (txn.pointer.or t.pointer) = true := by
      simpa only [Coherent, hph] using h
    dsimp only
    cases hu : upsert c (t.seen txn) at' with
    | none => trivial
    | some p =>
      -- the upsert's own guard repeats what the lock already ensures; it writes the call's pointer
      have hp : c.pointer at' = p := (Option.ite_none_right_eq_some.mp hu).2 |> Option.some.inj
      exact ⟨_, hs.1, hs.2.1, hs.2.2.1, hs.2.2.2, by rw [← hp]⟩
  | upserted c at' =>
    have hs : ∃ previous, Sound t previous (t.audit ++ txn.audit) ∧ 0 ≤ c.expectedActiveGeneration ∧
        Backed t (c.auditRow at') ∧ c.expects previous = true ∧ txn.pointer = some (c.pointer at') := by
      simpa only [Coherent, hph] using h
    obtain ⟨previous, hs, h0, hb, hx, hp⟩ := hs
    dsimp only
    by_cases ha : auditable (t.seen txn) (c.auditRow at')
    · rw [if_pos ha]
      show Sound t (txn.pointer.or t.pointer) (t.audit ++ (txn.audit ++ [c.auditRow at']))
      rw [hp, ← List.append_assoc]
      exact hs.promote h0 hb hx
    · rw [if_neg ha]
      trivial

/-! ## One step -/

/-- Nothing written, and not past the lock. -/
def Clean (txn : Transaction) : Prop :=
  txn.pointer = none ∧ txn.audit = [] ∧
    match txn.phase with
    | .idle => True
    | .waiting _ _ => True
    | .aborted => True
    | _ => False

structure Inv (w : World) : Prop where
  sound : Sound w.tables w.tables.pointer w.tables.audit
  coherent : ∀ i txn, w.sessions i = some txn → Coherent w.tables txn
  /-- Whoever wrote, or is past the lock, holds it. -/
  owns : ∀ i txn, w.sessions i = some txn → Clean txn ∨ w.holder = some i

theorem Clean.coherent {t : Tables} {txn : Transaction} (h : Clean txn) (hs : Sound t t.pointer t.audit) : Coherent t txn := by
  obtain ⟨hp, ha, hph⟩ := h
  unfold Coherent
  rw [hp, ha, List.append_nil]
  cases hphase : txn.phase with
  | idle | waiting => exact hs
  | aborted => trivial
  | _ => simp [hphase] at hph

theorem Clean.seen {t : Tables} {txn : Transaction} (h : Clean txn) : t.seen txn = t := by
  obtain ⟨hp, ha, -⟩ := h
  rw [Tables.seen, hp, ha, List.append_nil]
  rfl

variable {w : World}

theorem set_sessions_self (i : Nat) (txn : Transaction) : (w.set i txn).sessions i = some txn := Function.update_self ..

theorem set_sessions_of_ne {i j : Nat} (h : j ≠ i) (txn : Transaction) : (w.set i txn).sessions j = w.sessions j :=
  Function.update_of_ne h ..

theorem close_sessions_self (i : Nat) : (w.close i).sessions i = none := Function.update_self ..

theorem close_sessions_of_ne {i j : Nat} (h : j ≠ i) : (w.close i).sessions j = w.sessions j := Function.update_of_ne h ..

theorem Fresh.inv (h : w.Fresh) : Inv w := by
  refine ⟨?_, ?_, ?_⟩
  · rw [h.pointer, h.audit]
    exact ⟨.empty, by simp⟩
  · intro i txn hi
    simp [h.sessions i] at hi
  · intro i txn hi
    simp [h.sessions i] at hi

/-- Rows of other tables come and go without a promotion noticing. -/
theorem Inv.tables (h : Inv w) {t : Tables} (he : Extends t w.tables) (hp : t.pointer = w.tables.pointer)
    (ha : t.audit = w.tables.audit) : Inv { w with tables := t } := by
  refine ⟨?_, fun i txn hi => (h.coherent i txn hi).extend he hp ha, h.owns⟩
  show Sound t t.pointer t.audit
  rw [hp, ha]
  exact h.sound.extend he

theorem Inv.set (h : Inv w) {i : Nat} (txn : Transaction) (hc : Coherent w.tables txn) (ho : Clean txn ∨ w.holder = some i) :
    Inv (w.set i txn) := by
  have hat : ∀ j other, (w.set i txn).sessions j = some other → j = i ∧ other = txn ∨ w.sessions j = some other := by
    intro j other hj
    by_cases hji : j = i
    · subst hji
      rw [set_sessions_self] at hj
      exact .inl ⟨rfl, (Option.some.inj hj).symm⟩
    · rw [set_sessions_of_ne hji] at hj
      exact .inr hj
  refine ⟨h.sound, ?_, ?_⟩
  · intro j other hj
    rcases hat j other hj with ⟨rfl, rfl⟩ | hj
    · exact hc
    · exact h.coherent j other hj
  · intro j other hj
    rcases hat j other hj with ⟨rfl, rfl⟩ | hj
    · exact ho
    · exact h.owns j other hj

theorem close_sessions {i j : Nat} {txn : Transaction} (h : (w.close i).sessions j = some txn) :
    j ≠ i ∧ w.sessions j = some txn := by
  by_cases hji : j = i
  · rw [hji, close_sessions_self] at h
    cases h
  · rw [close_sessions_of_ne hji] at h
    exact ⟨hji, h⟩

theorem close_holder {i j : Nat} (hji : j ≠ i) (h : w.holder = some j) : (w.close i).holder = some j := by
  show (if w.holder = some i then none else w.holder) = some j
  rw [h, if_neg fun hj => hji (Option.some.inj hj)]

theorem Inv.close (h : Inv w) (i : Nat) : Inv (w.close i) := by
  refine ⟨h.sound, ?_, ?_⟩
  · intro j txn hj
    exact h.coherent j txn (close_sessions hj).2
  · intro j txn hj
    obtain ⟨hji, hj⟩ := close_sessions hj
    rcases h.owns j txn hj with hc | ho
    · exact .inl hc
    · exact .inr (close_holder hji ho)

theorem promote_inv (h : Inv w) (i : Nat) (user : Role) (call : Option PromotionCall) : Inv (promote w i user call) := by
  unfold promote
  cases hs : w.sessions i with
  | none => exact h
  | some txn =>
    dsimp only
    cases hph : txn.phase with
    | idle =>
      -- the lock is not taken yet: what the transaction knew, it still knows
      have hcoh : Sound w.tables (txn.pointer.or w.tables.pointer) (w.tables.audit ++ txn.audit) := by
        simpa only [Coherent, hph] using h.coherent i txn hs
      have hclean : ∀ phase, (phase = .aborted ∨ ∃ c at', phase = .waiting c at') →
          Clean { txn with phase := phase } ∨ w.holder = some i := by
        intro phase hphase
        rcases h.owns i txn hs with hc | ho
        · obtain ⟨hp, ha, -⟩ := hc
          refine .inl ⟨hp, ha, ?_⟩
          rcases hphase with rfl | ⟨c, at', rfl⟩ <;> trivial
        · exact .inr ho
      cases call with
      | none => exact h.set { txn with phase := .aborted } trivial (hclean _ (.inl rfl))
      | some c =>
        dsimp only
        by_cases hu : user = .learning
        · rw [if_pos hu]
          exact h.set { txn with phase := .waiting c w.clock } hcoh (hclean _ (.inr ⟨c, w.clock, rfl⟩))
        · rw [if_neg hu]
          exact h.set { txn with phase := .aborted } trivial (hclean _ (.inl rfl))
    | _ => exact h

/-- A transaction that wrote nothing runs no statement before it has the lock. -/
theorem nextStatement_clean {seen : Tables} {txn : Transaction} (h : Clean txn) : (nextStatement seen txn).1 = txn := by
  obtain ⟨-, -, hph⟩ := h
  unfold nextStatement
  cases hphase : txn.phase with
  | idle | waiting | aborted => rfl
  | _ => simp [hphase] at hph

theorem statement_inv (h : Inv w) {i : Nat} {txn : Transaction} (hs : w.sessions i = some txn) :
    Inv (w.set i (nextStatement (w.tables.seen txn) txn).1) := by
  refine h.set _ (nextStatement_coherent (h.coherent i txn hs)) ?_
  rcases h.owns i txn hs with hc | ho
  · rw [nextStatement_clean hc]
    exact .inl hc
  · exact .inr ho

/-- Taking the lock: no other transaction is past it. -/
theorem lock_inv (h : Inv w) {i : Nat} {txn : Transaction} {c : PromotionCall} {at' : Timestamp} (hs : w.sessions i = some txn)
    (hph : txn.phase = .waiting c at') (hfree : w.holder = none ∨ w.holder = some i) :
    Inv { w.set i { txn with phase := .locked c at' } with holder := some i } := by
  have hcoh : Sound w.tables (txn.pointer.or w.tables.pointer) (w.tables.audit ++ txn.audit) := by
    simpa only [Coherent, hph] using h.coherent i txn hs
  refine ⟨h.sound, ?_, ?_⟩
  · intro j other hj
    by_cases hji : j = i
    · subst hji
      cases (set_sessions_self j { txn with phase := .locked c at' }).symm.trans hj
      exact hcoh
    · exact h.coherent j other ((set_sessions_of_ne hji _).symm.trans hj)
  · intro j other hj
    by_cases hji : j = i
    · exact .inr (by rw [hji])
    · rcases h.owns j other ((set_sessions_of_ne hji _).symm.trans hj) with hc | ho
      · exact .inl hc
      · rcases hfree with hfree | hfree
        · rw [hfree] at ho
          cases ho
        · rw [hfree] at ho
          exact absurd (Option.some.inj ho).symm hji

theorem advance_inv (h : Inv w) (i : Nat) : Inv (advance w i).1 := by
  unfold advance
  cases hs : w.sessions i with
  | none => exact h
  | some txn =>
    dsimp only
    cases hph : txn.phase with
    | waiting c at' =>
      dsimp only
      by_cases hfree : w.holder = none ∨ w.holder = some i
      · rw [if_pos hfree]
        exact lock_inv h hs hph hfree
      · rw [if_neg hfree]
        exact h
    | _ => exact statement_inv h hs

/-- What the holder of the lock wrote becomes what all see; nobody else wrote anything. -/
theorem commit_inv (h : Inv w) (i : Nat) : Inv (commit w i).1 := by
  unfold commit
  cases hs : w.sessions i with
  | none => exact h
  | some txn =>
    dsimp only
    cases hph : txn.phase with
    | idle =>
      have hcoh : Sound w.tables (txn.pointer.or w.tables.pointer) (w.tables.audit ++ txn.audit) := by
        simpa only [Coherent, hph] using h.coherent i txn hs
      have hsound : Sound (w.tables.seen txn) (w.tables.seen txn).pointer (w.tables.seen txn).audit :=
        hcoh.extend ⟨fun _ _ h => h, fun _ _ h => h⟩
      rcases h.owns i txn hs with hc | ho
      · show Inv { w.close i with tables := w.tables.seen txn }
        rw [hc.seen]
        exact h.close i
      · have hothers : ∀ j other, (w.close i).sessions j = some other → Clean other := by
          intro j other hj
          obtain ⟨hji, hj⟩ := close_sessions hj
          rcases h.owns j other hj with hc | ho'
          · exact hc
          · rw [ho] at ho'
            exact absurd (Option.some.inj ho').symm hji
        exact ⟨hsound, fun j other hj => (hothers j other hj).coherent hsound, fun j other hj => .inl (hothers j other hj)⟩
    | aborted => exact h.close i
    | _ => exact h

theorem step_inv (w : World) (c : Call) (h : Inv w) : Inv (step w c).1 := by
  cases c with
  | persistCandidate manifest ref candidate =>
    show Inv { w with tables := (persistCandidate w.tables manifest ref candidate).getD w.tables }
    cases hp : persistCandidate w.tables manifest ref candidate with
    | none => exact h
    | some t =>
      obtain ⟨he, hp, ha⟩ := persistCandidate_spec hp
      exact h.tables he hp ha
  | persistEvaluation ref evaluation =>
    show Inv { w with tables := (persistEvaluation w.tables ref evaluation).getD w.tables }
    cases hp : persistEvaluation w.tables ref evaluation with
    | none => exact h
    | some t =>
      obtain ⟨he, hp, ha⟩ := persistEvaluation_spec hp
      exact h.tables he hp ha
  | setGrant ref grant => exact h.tables ⟨fun _ _ h => h, fun _ _ h => h⟩ rfl rfl
  | setFragments fragments => exact h.tables ⟨fun _ _ h => h, fun _ _ h => h⟩ rfl rfl
  | advanceClock micros => exact ⟨h.sound, h.coherent, h.owns⟩
  | begin' i =>
    show Inv (if (w.sessions i).isSome then w else w.set i ⟨.idle, none, []⟩)
    by_cases hs : (w.sessions i).isSome
    · rw [if_pos hs]
      exact h
    · rw [if_neg hs]
      have hc : Clean ⟨.idle, none, []⟩ := ⟨rfl, rfl, trivial⟩
      exact h.set _ (hc.coherent h.sound) (.inl hc)
  | promote i user call => exact promote_inv h i user call
  | advance i => exact advance_inv h i
  | commit i => exact commit_inv h i
  | rollback i => exact h.close i

/-! ## What changes the pointer and the audit -/

def Reply.rows : Reply → List AuditRow
  | .committed rows => rows
  | _ => []

theorem promote_tables (i : Nat) (user : Role) (call : Option PromotionCall) : (promote w i user call).tables = w.tables := by
  unfold promote
  cases w.sessions i with
  | none => rfl
  | some txn =>
    dsimp only
    cases txn.phase <;> cases call <;> rfl

theorem nextStatement_rows (seen : Tables) (txn : Transaction) : (nextStatement seen txn).2.rows = [] := by
  unfold nextStatement
  cases txn.phase with
  | idle | waiting | aborted => rfl
  | _ => dsimp only; split <;> rfl

theorem advance_rows (i : Nat) : (advance w i).2.rows = [] := by
  unfold advance
  cases w.sessions i with
  | none => rfl
  | some txn =>
    dsimp only
    cases hph : txn.phase with
    | waiting => dsimp only; split <;> rfl
    | _ => exact nextStatement_rows _ _

theorem advance_tables (i : Nat) : (advance w i).1.tables = w.tables := by
  unfold advance
  cases w.sessions i with
  | none => rfl
  | some txn =>
    dsimp only
    cases hph : txn.phase with
    | waiting => dsimp only; split <;> rfl
    | _ => rfl

/-- A step adds to the audit what it commits, and leaves the pointer where it is unless it commits. -/
theorem step_audit (w : World) (c : Call) :
    (step w c).1.tables.audit = w.tables.audit ++ (step w c).2.rows ∧
      ((∀ rows, (step w c).2 ≠ .committed rows) → (step w c).1.tables.pointer = w.tables.pointer) := by
  cases c with
  | persistCandidate manifest ref candidate =>
    simp only [step, Reply.rows, List.append_nil]
    cases hp : persistCandidate w.tables manifest ref candidate with
    | none => exact ⟨rfl, fun _ => rfl⟩
    | some t => exact ⟨(persistCandidate_spec hp).2.2, fun _ => (persistCandidate_spec hp).2.1⟩
  | persistEvaluation ref evaluation =>
    simp only [step, Reply.rows, List.append_nil]
    cases hp : persistEvaluation w.tables ref evaluation with
    | none => exact ⟨rfl, fun _ => rfl⟩
    | some t => exact ⟨(persistEvaluation_spec hp).2.2, fun _ => (persistEvaluation_spec hp).2.1⟩
  | setGrant ref grant => exact ⟨(List.append_nil _).symm, fun _ => rfl⟩
  | setFragments fragments => exact ⟨(List.append_nil _).symm, fun _ => rfl⟩
  | advanceClock micros => exact ⟨(List.append_nil _).symm, fun _ => rfl⟩
  | begin' i =>
    simp only [step, Reply.rows, List.append_nil]
    by_cases hs : (w.sessions i).isSome
    · simp [hs]
    · simp [hs, World.set]
  | promote i user call =>
    simp only [step, Reply.rows, List.append_nil, promote_tables]
    exact ⟨trivial, fun _ => trivial⟩
  | advance i =>
    simp only [step, advance_rows, List.append_nil, advance_tables]
    exact ⟨trivial, fun _ => trivial⟩
  | commit i =>
    simp only [step, commit]
    cases hs : w.sessions i with
    | none => exact ⟨(List.append_nil _).symm, fun _ => rfl⟩
    | some txn =>
      dsimp only
      cases hph : txn.phase with
      | idle => exact ⟨rfl, fun hno => absurd rfl (hno txn.audit)⟩
      | _ => exact ⟨(List.append_nil _).symm, fun _ => rfl⟩
  | rollback i => exact ⟨(List.append_nil _).symm, fun _ => rfl⟩

/-- A refused call leaves its transaction nothing but to be closed, and closing it commits nothing. -/
theorem step_refused (w : World) (c : Call) {i : Nat} {txn : Transaction} (hs : w.sessions i = some txn)
    (hph : txn.phase = .aborted) :
    ((step w c).1.sessions i = some txn ∨ (step w c).1.sessions i = none) ∧
      (c = .commit i → ∀ rows, (step w c).2 ≠ .committed rows) := by
  cases c with
  | persistCandidate | persistEvaluation | setGrant | setFragments | advanceClock => exact ⟨.inl hs, by rintro ⟨⟩⟩
  | begin' j =>
    refine ⟨?_, by rintro ⟨⟩⟩
    show (if (w.sessions j).isSome then w else w.set j ⟨.idle, none, []⟩).sessions i = some txn ∨ _
    by_cases hj : (w.sessions j).isSome
    · rw [if_pos hj]
      exact .inl hs
    · rw [if_neg hj]
      have hne : i ≠ j := by
        rintro rfl
        exact hj (by rw [hs]; rfl)
      exact .inl ((set_sessions_of_ne hne _).trans hs)
  | promote j user call =>
    refine ⟨.inl ?_, by rintro ⟨⟩⟩
    by_cases hne : i = j
    · subst hne
      simp only [step, promote, hs, hph]
    · show (promote w j user call).sessions i = some txn
      unfold promote
      cases w.sessions j with
      | none => exact hs
      | some other =>
        dsimp only
        cases other.phase with
        | idle => cases call <;> exact (set_sessions_of_ne hne _).trans hs
        | _ => exact hs
  | advance j =>
    refine ⟨.inl ?_, by rintro ⟨⟩⟩
    by_cases hne : i = j
    · subst hne
      simp only [step, advance, hs, hph, nextStatement]
      exact set_sessions_self i txn
    · show (advance w j).1.sessions i = some txn
      unfold advance
      cases w.sessions j with
      | none => exact hs
      | some other =>
        dsimp only
        cases other.phase with
        | waiting =>
          dsimp only
          split
          · exact (set_sessions_of_ne hne _).trans hs
          · exact hs
        | _ => exact (set_sessions_of_ne hne _).trans hs
  | commit j =>
    by_cases hne : i = j
    · subst hne
      simp only [step, commit, hs, hph]
      exact ⟨.inr (close_sessions_self i), by simp⟩
    · refine ⟨.inl ?_, by rintro ⟨⟩; exact absurd rfl hne⟩
      show (commit w j).1.sessions i = some txn
      unfold commit
      cases w.sessions j with
      | none => exact hs
      | some other =>
        dsimp only
        cases other.phase with
        | idle | aborted => exact (close_sessions_of_ne hne).trans hs
        | _ => exact hs
  | rollback j =>
    refine ⟨?_, by rintro ⟨⟩⟩
    by_cases hne : i = j
    · subst hne
      exact .inr (close_sessions_self i)
    · exact .inl ((close_sessions_of_ne hne).trans hs)

/-! ## Runs -/

/-- The promotions that a run committed, in order. -/
def committedRows (entries : List (Entry World Call Reply)) : List AuditRow := entries.flatMap fun e => e.reply.rows

theorem after_audit (w : World) (calls : List Call) :
    (after step w calls).tables.audit = w.tables.audit ++ committedRows (history step w calls) :=
  after_log (·.tables.audit) Reply.rows (fun w c => (step_audit w c).1) w calls

/-- The promotions of an Organization are one chain that ends at the pointer. -/
structure Unbroken (t : Tables) : Prop where
  generations : t.audit.map (·.activeGeneration) = List.range' 1 t.audit.length
  absent : t.pointer = none ↔ t.audit = []
  last : ∀ p, t.pointer = some p → p.activeGeneration = t.audit.length ∧ ∃ a, t.audit.getLast? = some a ∧ PointsAt p a
  first : ∀ b, t.audit[0]? = some b → b.expectedBaseManifestDigest = none
  bases : ∀ i a b, t.audit[i]? = some a → t.audit[i + 1]? = some b → b.expectedBaseManifestDigest = some a.manifestDigest
  backed : ∀ a ∈ t.audit, Backed t a

theorem Sound.unbroken {t : Tables} (h : Sound t t.pointer t.audit) : Unbroken t := by
  refine ⟨h.chain.generations, h.chain.absent_iff, ?_, ?_, ?_, h.backed⟩
  · intro p hp
    refine ⟨?_, h.chain.pointer_last hp⟩
    rw [← h.chain.generationOf_eq, hp]
    rfl
  · intro b hb
    exact h.chain.bases 0 hb
  · intro i a b ha hb
    rw [h.chain.bases (i + 1) hb, if_neg (Nat.succ_ne_zero i), Nat.add_sub_cancel, ha]
    rfl

/-- A step that commits nothing leaves the pointer and the audit; a refused transaction commits nothing. -/
structure Contained (e : Entry World Call Reply) : Prop where
  unchanged : (∀ rows, e.reply ≠ .committed rows) →
    (step e.before e.call).1.tables.pointer = e.before.tables.pointer ∧
      (step e.before e.call).1.tables.audit = e.before.tables.audit
  refused : ∀ i txn, e.before.sessions i = some txn → txn.phase = .aborted →
    ((step e.before e.call).1.sessions i = some txn ∨ (step e.before e.call).1.sessions i = none) ∧
      (e.call = .commit i → ∀ rows, e.reply ≠ .committed rows)

theorem step_contained (w : World) (c : Call) : Contained ⟨w, c, (step w c).2⟩ := by
  refine ⟨?_, fun i txn hs hph => step_refused w c hs hph⟩
  intro hno
  refine ⟨(step_audit w c).2 hno, ?_⟩
  have hrows : (step w c).2.rows = [] := by
    cases hr : (step w c).2 with
    | committed rows => exact absurd hr (hno rows)
    | _ => rfl
  rw [(step_audit w c).1, hrows, List.append_nil]

/-- Whatever the order in which candidates and evaluations are persisted and promotions are
    called, refused, committed and rolled back. -/
theorem promotions_form_one_chain (w : World) (hw : w.Fresh) (calls : List Call) :
    Unbroken (after step w calls).tables ∧
      (after step w calls).tables.audit = committedRows (history step w calls) ∧
      ((committedRows (history step w calls)).map (·.expectedActiveGeneration)).Nodup ∧
      ∀ e ∈ history step w calls, Contained e := by
  have hinv : Inv (after step w calls) := after_inv Inv step_inv (Fresh.inv hw) calls
  have haudit : (after step w calls).tables.audit = committedRows (history step w calls) := by
    rw [after_audit, hw.audit, List.nil_append]
  refine ⟨hinv.sound.unbroken, haudit, ?_, history_inv Inv step_inv (fun w c _ => step_contained w c) (Fresh.inv hw) calls⟩
  rw [← haudit, hinv.sound.chain.expected]
  exact List.nodup_range

namespace PromotionInstance

def sha (n : Nat) : String := String.ofList (List.replicate 64 (hexDigit n))

def passing : GateEvidence := ⟨.pass, sha 10⟩

def lineage : ReleaseLineage := ⟨"manifest", sha 11, 0, none, ⟨passing, passing, passing, passing⟩, sha 12, sha 13, ["make test"]⟩

def evaluation : ReleaseEvaluation :=
  ⟨sha 14, "candidate", sha 15, lineage, true, sha 1, 5, DIGEST_PROFILE, SIGNATURE_PROFILE, 1, List.replicate 32 0⟩

def call : PromotionCall :=
  { promotionRef := "promotion"
    operatorRef := "operator"
    authenticationBindingRef := "binding"
    authorityRef := "authority"
    authorityDigest := sha 2
    candidateRef := "candidate"
    candidateDigest := sha 15
    manifestRef := "manifest"
    manifestDigest := sha 11
    evaluationRef := "evaluation"
    evaluationDigest := sha 14
    evaluationSigningKeyVersion := 1
    evaluationSignature := List.replicate 32 0
    expectedActiveGeneration := 0
    expectedBaseManifestDigest := none
    issuedAt := 5
    expiresAt := 100
    requestId := "request"
    auditReasonDigest := sha 3
    promotionCallDigest := sha 4 }

def start : World := ⟨10, ⟨fun _ => none, fun _ => none, fun _ => none, fun _ => none, [], none, []⟩, fun _ => none, none⟩

def grant : OperatorGrant := ⟨sha 2, "operator", "binding", 0, 50, none⟩

/-- A manifest of one Revision, which is indexed under its profile. -/
def manifest : ReleaseManifest := ⟨sha 11, sha 8, true, [uuidText (.ofNat 7)]⟩

def setup : List Call :=
  [.persistCandidate manifest "candidate" ⟨sha 15, lineage⟩, .persistEvaluation "evaluation" evaluation,
    .setGrant "authority" (some grant), .setFragments [⟨.ofNat 7, some (sha 8)⟩]]

/-- Two sessions promote the same candidate; the second one waits for the lock, and is refused. -/
def race : List Call :=
  [.begin' 0, .begin' 1, .promote 0 .learning (some call),
    .promote 1 .learning (some { call with promotionRef := "late" }), .advance 0, .advance 1, .advance 0,
    .advance 0, .advance 0, .advance 0, .advance 0, .advance 0, .commit 0, .advance 1, .advance 1, .advance 1, .advance 1,
    .advance 1, .commit 1]

theorem start_fresh : start.Fresh := ⟨rfl, rfl, fun _ => rfl, rfl⟩

/-- One promotion is committed, and the audit holds it. -/
theorem race_forms_one_chain :
    start.Fresh ∧ Unbroken (after step start (setup ++ race)).tables ∧
      (committedRows (history step start (setup ++ race))).map (·.promotionRef) = ["promotion"] ∧
      (after step start (setup ++ race)).tables.audit = committedRows (history step start (setup ++ race)) := by
  have h := promotions_form_one_chain start start_fresh (setup ++ race)
  exact ⟨start_fresh, h.1, by decide +kernel, h.2.1⟩

end PromotionInstance

end ContextEngine.Learning
