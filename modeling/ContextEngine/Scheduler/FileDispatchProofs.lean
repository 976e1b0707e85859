/-
  ContextEngine.Scheduler.FileDispatchProofs — leases of File jobs are exclusive and bounded,
  and lose no progress.

  Proved:
  (1) A job's row only evolves (`Evolves`): its generation grows, or it leaves `leased` under
      the same lease. A lease that could not be redeemed at some moment never can (`Dead.keep`).
  (2) Each statement keeps what its session knows (`next_inv`), and so does one step of any
      session (`step_inv`): whoever writes a job holds its row, and whoever claims or redeems
      under a scan epoch holds the Source's progress lock.
  (3) Every step of every run of any number of sessions (`leases_exclusive_and_resumed`).
-/

import ContextEngine.Scheduler.FileDispatch

namespace ContextEngine.Scheduler

open ContextEngine.Python ContextEngine.Postgres ContextEngine.Runtime ContextEngine.Machine

/-! ## Rows that evolve -/

/-- The columns that no function changes. -/
structure SameImport (old new : Job) : Prop where
  sourceId : new.sourceId = old.sourceId
  sourceVersionId : new.sourceVersionId = old.sourceVersionId
  servicePrincipalId : new.servicePrincipalId = old.servicePrincipalId
  changePageRef : new.changePageRef = old.changePageRef

/-- A later row of the same job. -/
structure Evolves (old new : Job) : Prop where
  same : SameImport old new
  later : old.leaseGeneration < new.leaseGeneration ∨ old.leaseGeneration = new.leaseGeneration ∧ old.lease = new.lease ∧
    (old.state ≠ .leased → new.state ≠ .leased)

theorem Evolves.refl (job : Job) : Evolves job job := ⟨⟨rfl, rfl, rfl, rfl⟩, .inr ⟨rfl, rfl, id⟩⟩

/-- The epoch of a job's page does not depend on its lease. -/
theorem SameImport.currentEpoch {old new : Job} (h : SameImport old new) (pages : List AcceptedPage) :
    currentEpoch pages new = currentEpoch pages old := by
  unfold Scheduler.currentEpoch
  rw [h.sourceVersionId, h.changePageRef]

/-- The state that a job is in, or resumes in. -/
def Job.resume (job : Job) : JobState :=
  match job.state with
  | .available => job.recoveryFromState.getD .running
  | .leased => job.recoveryFromState.getD .running
  | s => s

/-- The most advanced of the states that a job was in; `running` when it was in none. -/
def furthest (states : List JobState) : JobState :=
  if .ready ∈ states then .ready else if .prepared ∈ states then .prepared else .running

section Leases

variable (digest : Bytes → Bytes)

/-- The lease is the one that the row is under, or an older one. -/
structure IssuedFor (job : Job) (l : Lease) : Prop where
  sourceId : job.sourceId = l.sourceId
  servicePrincipalId : job.servicePrincipalId = l.servicePrincipalId
  scheduled : job.changePageRef.isSome = true
  positive : 1 ≤ l.leaseGeneration
  term : l.issuedAt ≤ l.expiresAt
  current : l.leaseGeneration < job.leaseGeneration ∨ l.leaseGeneration = job.leaseGeneration ∧
    job.lease = some ⟨l.signingKeyVersion, digest l.nonce, l.issuedAt, l.expiresAt⟩

variable {digest}

theorem IssuedFor.evolve {old new : Job} {l : Lease} (h : IssuedFor digest old l) (he : Evolves old new) : IssuedFor digest new l := by
  refine ⟨he.same.sourceId.trans h.sourceId, he.same.servicePrincipalId.trans h.servicePrincipalId, ?_, h.positive, h.term, ?_⟩
  · rw [he.same.changePageRef]
    exact h.scheduled
  · rcases h.current with hlt | ⟨heq, hl⟩
    · rcases he.later with hgen | ⟨hgen, -⟩
      · exact .inl (hlt.trans hgen)
      · exact .inl (hgen ▸ hlt)
    · rcases he.later with hgen | ⟨hgen, hlease, -⟩
      · exact .inl (heq ▸ hgen)
      · exact .inr ⟨heq.trans hgen, hlease ▸ hl⟩

theorem under_iff {job : Job} {l : Lease} : job.under digest l = true ↔ job.servicePrincipalId = l.servicePrincipalId ∧
    job.sourceId = l.sourceId ∧ job.leaseGeneration = l.leaseGeneration ∧
    job.lease = some ⟨l.signingKeyVersion, digest l.nonce, l.issuedAt, l.expiresAt⟩ := by
  simp only [Job.under, Bool.and_eq_true, beq_iff_eq, decide_eq_true_eq, and_assoc]

variable (enabled : UUID → UUID → Bool)

/-- The lease cannot be redeemed at `at'`, and never will be: a newer one was issued, it was
    redeemed already, or it was not its time. -/
def Dead (job : Job) (l : Lease) (at' : Timestamp) : Prop :=
  l.leaseGeneration < job.leaseGeneration ∨ l.leaseGeneration = job.leaseGeneration ∧ job.state ≠ .leased ∨
    ¬ (l.issuedAt ≤ at' ∧ at' < l.expiresAt) ∨ enabled l.organizationId job.servicePrincipalId = false

variable {enabled}

theorem Dead.keep {old new : Job} {l : Lease} {at' : Timestamp} (h : Dead enabled old l at') (he : Evolves old new) :
    Dead enabled new l at' := by
  rcases h with h | ⟨hgen, hs⟩ | h | h
  · rcases he.later with hlt | ⟨heq, -⟩
    · exact .inl (h.trans hlt)
    · exact .inl (heq ▸ h)
  · rcases he.later with hlt | ⟨heq, -, hleft⟩
    · exact .inl (hgen ▸ hlt)
    · exact .inr (.inl ⟨hgen.trans heq, hleft hs⟩)
  · exact .inr (.inr (.inl h))
  · rw [← he.same.servicePrincipalId] at h
    exact .inr (.inr (.inr h))

theorem Dead.not_redeemable {job : Job} {l : Lease} {at' : Timestamp} (h : Dead enabled job l at') :
    job.redeemable enabled digest l at' = false := by
  by_contra hr
  simp only [Job.redeemable, Bool.not_eq_false, Bool.and_eq_true, decide_eq_true_eq, under_iff] at hr
  obtain ⟨⟨⟨hs, -, -, hgen, -⟩, ht⟩, hen⟩ := hr
  rcases h with h | ⟨-, h⟩ | h | h
  · omega
  · exact h hs
  · exact h ht
  · rw [h] at hen
    cases hen

/-- An issued lease that cannot be redeemed now is dead. -/
theorem IssuedFor.dead {job : Job} {l : Lease} {at' : Timestamp} (h : IssuedFor digest job l)
    (hr : job.redeemable enabled digest l at' = false) : Dead enabled job l at' := by
  by_contra hno
  obtain ⟨hgen, hs, ht, hen⟩ : ¬ l.leaseGeneration < job.leaseGeneration ∧ (l.leaseGeneration = job.leaseGeneration → job.state = .leased) ∧
      (l.issuedAt ≤ at' ∧ at' < l.expiresAt) ∧ enabled l.organizationId job.servicePrincipalId = true := by
    simp only [Dead, not_or, not_not, Bool.not_eq_false] at hno
    exact ⟨hno.1, fun heq => by_contra fun hs => hno.2.1 ⟨heq, hs⟩, hno.2.2.1, hno.2.2.2⟩
  rcases h.current with hlt | ⟨heq, hl⟩
  · exact hgen hlt
  · have hred : job.redeemable enabled digest l at' = true := by
      simp only [Job.redeemable, Bool.and_eq_true, decide_eq_true_eq, under_iff]
      exact ⟨⟨⟨hs heq, h.servicePrincipalId, h.sourceId, heq.symm, hl⟩, ht⟩, hen⟩
    rw [hred] at hr
    cases hr

end Leases

/-! ## What a session knows -/

section Sessions

variable (enabled : UUID → UUID → Bool) (digest : Bytes → Bytes) (w : World) (i : Nat)

/-- The progress of the job's Source is this session's, and its latest epoch is the job's. -/
structure Fenced (key : JobKey) (job : Job) : Prop where
  progress : w.progressLocks (sourceKey key job) = some i
  epoch : currentEpoch (w.pages (sourceKey key job)) job = true

/-- What a claim writes. -/
structure Claims (old new : Job) (l : Lease) (clock : Timestamp) : Prop where
  evolves : Evolves old new
  issued : IssuedFor digest new l
  generation : new.leaseGeneration = old.leaseGeneration + 1
  leaseGeneration : l.leaseGeneration = new.leaseGeneration
  bounded : new.leaseGeneration ≤ MAX_GENERATION
  state : new.state = .leased
  resume : new.resume = old.resume
  minted : l.issuedAt ≤ clock
  whole : MICROS ∣ l.expiresAt
  due : old.leaseGeneration ≠ 0 → ∃ columns, old.lease = some columns ∧ dueAt columns.expiresAt old.leaseGeneration ≤ l.issuedAt

def WrittenKnows : Written → Prop
  | .nothing => True
  | .claimed new l => w.rowLocks l.key = some i ∧
    ∃ old, w.jobs l.key = some old ∧ Fenced w i l.key old ∧ Claims digest old new l w.clock
  | .redeemed new l => w.rowLocks l.key = some i ∧ ∃ old at', w.jobs l.key = some old ∧ Fenced w i l.key old ∧
    old.state = .leased ∧ old.under digest l = true ∧ new = old.redeem at'
  | .advanced new l => w.rowLocks l.key = some i ∧ ∃ old, w.jobs l.key = some old ∧ before new.state = some old.state ∧
    new = { old with state := new.state }
  | .accepted source _ => w.progressLocks source = some i

def PhaseKnows : Phase → Prop
  | .selected _ key state _ generation => w.rowLocks key = some i ∧ (w.jobs key).isSome = true ∧ state ≠ .available ∧
    generation ≤ MAX_GENERATION - 1
  | .fenced _ key state _ generation => w.rowLocks key = some i ∧ state ≠ .available ∧ generation ≤ MAX_GENERATION - 1 ∧
    ∃ job, w.jobs key = some job ∧ w.progressLocks (sourceKey key job) = some i
  | .firstSelected _ key => w.rowLocks key = some i ∧ (w.jobs key).isSome = true
  | .firstFenced _ key => w.rowLocks key = some i ∧ ∃ job, w.jobs key = some job ∧ w.progressLocks (sourceKey key job) = some i
  | .redeem l _ => l ∈ w.issued
  | .redeemWaiting l _ => l ∈ w.issued
  | .redeemFenced l _ _ => l ∈ w.issued ∧ w.progressLocks l.source = some i
  | .redeemUpdate l at' => l ∈ w.issued ∧ ∃ job, w.jobs l.key = some job ∧ (Fenced w i l.key job ∨ Dead enabled job l at')
  | .advance l _ _ => l ∈ w.issued
  | .accepting source _ => w.progressLocks source = some i
  | _ => True

structure Knows (txn : Transaction) : Prop where
  phase : PhaseKnows enabled w i txn.phase
  written : WrittenKnows digest w i txn.written

/-- Leases of one job, in the order in which they were issued. -/
structure Spaced (issued : List Lease) : Prop where
  spaced : ∀ l ∈ issued, ∀ l' ∈ issued, l.key = l'.key → l.leaseGeneration < l'.leaseGeneration →
    dueAt l.expiresAt l.leaseGeneration ≤ l'.issuedAt
  unique : ∀ l ∈ issued, ∀ l' ∈ issued, l.key = l'.key → l.leaseGeneration = l'.leaseGeneration → l = l'

structure Inv : Prop where
  issued : ∀ l ∈ w.issued, ∃ job, w.jobs l.key = some job ∧ IssuedFor digest job l
  spaced : Spaced w.issued
  minted : ∀ l ∈ w.issued, l.issuedAt ≤ w.clock
  whole : ∀ key job columns, w.jobs key = some job → job.lease = some columns → MICROS ∣ columns.expiresAt
  /-- A generation above zero was issued. -/
  witnessed : ∀ key job, w.jobs key = some job → job.leaseGeneration ≠ 0 → ∃ l ∈ w.issued, l.key = key ∧
    l.leaseGeneration = job.leaseGeneration
  sessions : ∀ j txn, w.sessions j = some txn → Knows enabled digest w j txn

end Sessions

/-! ## What survives a step of another session -/

/-- The rows and the progress that a session has locked are as they were, and other jobs evolve. -/
structure Keeps (j : Nat) (w w' : World) : Prop where
  jobs : ∀ key old, w.jobs key = some old → ∃ new, w'.jobs key = some new ∧ Evolves old new ∧ (w.rowLocks key = some j → new = old)
  rows : ∀ key, w.rowLocks key = some j → w'.rowLocks key = some j
  progress : ∀ source, w.progressLocks source = some j → w'.progressLocks source = some j ∧ w'.pages source = w.pages source
  issued : ∀ l ∈ w.issued, l ∈ w'.issued
  clock : w.clock ≤ w'.clock

section Keeps

variable {enabled : UUID → UUID → Bool} {digest : Bytes → Bytes} {w w' : World} {j : Nat}

theorem Keeps.own {key : JobKey} {old : Job} (h : Keeps j w w') (hr : w.rowLocks key = some j) (hj : w.jobs key = some old) :
    w'.jobs key = some old := by
  obtain ⟨new, hnew, -, hsame⟩ := h.jobs key old hj
  rw [hnew, hsame hr]

theorem Fenced.keep {key : JobKey} {old new : Job} (h : Fenced w j key old) (hk : Keeps j w w') (he : Evolves old new) :
    Fenced w' j key new := by
  have hsource : sourceKey key new = sourceKey key old := by rw [sourceKey, sourceKey, he.same.sourceId]
  obtain ⟨hlock, hpages⟩ := hk.progress _ h.progress
  refine ⟨?_, ?_⟩
  · rw [hsource]
    exact hlock
  · rw [hsource, hpages, he.same.currentEpoch]
    exact h.epoch

theorem Claims.later {old new : Job} {l : Lease} {clock clock' : Timestamp} (h : Claims digest old new l clock) (hle : clock ≤ clock') :
    Claims digest old new l clock' := { h with minted := h.minted.trans hle }

theorem WrittenKnows.keep {written : Written} (h : WrittenKnows digest w j written) (hk : Keeps j w w') :
    WrittenKnows digest w' j written := by
  cases written with
  | nothing => trivial
  | claimed new l =>
    obtain ⟨hr, old, hj, hf, hc⟩ := h
    exact ⟨hk.rows _ hr, old, hk.own hr hj, hf.keep hk (.refl old), hc.later hk.clock⟩
  | redeemed new l =>
    obtain ⟨hr, old, at', hj, hf, hs⟩ := h
    exact ⟨hk.rows _ hr, old, at', hk.own hr hj, hf.keep hk (.refl old), hs⟩
  | advanced new l =>
    obtain ⟨hr, old, hj, hs⟩ := h
    exact ⟨hk.rows _ hr, old, hk.own hr hj, hs⟩
  | accepted source page => exact (hk.progress _ h).1

theorem Keeps.some {key : JobKey} (hk : Keeps j w w') (h : (w.jobs key).isSome = true) : (w'.jobs key).isSome = true := by
  obtain ⟨old, hold⟩ := Option.isSome_iff_exists.mp h
  obtain ⟨new, hnew, -⟩ := hk.jobs key old hold
  rw [hnew]
  rfl

theorem PhaseKnows.keep {phase : Phase} (h : PhaseKnows enabled w j phase) (hk : Keeps j w w') : PhaseKnows enabled w' j phase := by
  cases phase with
  | selected c key state resume generation => exact ⟨hk.rows _ h.1, hk.some h.2.1, h.2.2⟩
  | fenced c key state resume generation =>
    obtain ⟨hr, hlo, hhi, job, hj, hp⟩ := h
    exact ⟨hk.rows _ hr, hlo, hhi, job, hk.own hr hj, (hk.progress _ hp).1⟩
  | firstSelected c key => exact ⟨hk.rows _ h.1, hk.some h.2⟩
  | firstFenced c key =>
    obtain ⟨hr, job, hj, hp⟩ := h
    exact ⟨hk.rows _ hr, job, hk.own hr hj, (hk.progress _ hp).1⟩
  | redeem l at' => exact hk.issued l h
  | redeemWaiting l ref => exact hk.issued l h
  | redeemFenced l at' ref => exact ⟨hk.issued l h.1, (hk.progress _ h.2).1⟩
  | redeemUpdate l at' =>
    obtain ⟨hl, job, hj, hknows⟩ := h
    obtain ⟨new, hnew, he, -⟩ := hk.jobs _ job hj
    refine ⟨hk.issued l hl, new, hnew, ?_⟩
    rcases hknows with hf | hd
    · exact .inl (hf.keep hk he)
    · exact .inr (hd.keep he)
  | advance l target now => exact hk.issued l h
  | accepting source page => exact (hk.progress _ h).1
  | claim | first | accept | returned | aborted => trivial

theorem Knows.keep {txn : Transaction} (h : Knows enabled digest w j txn) (hk : Keeps j w w') : Knows enabled digest w' j txn :=
  ⟨h.phase.keep hk, h.written.keep hk⟩

/-- Jobs, pages, leases and clock are as they were; locks are taken where they were free. -/
structure Local (i : Nat) (w w' : World) : Prop where
  jobs : w'.jobs = w.jobs
  pages : w'.pages = w.pages
  issued : w'.issued = w.issued
  clock : w'.clock = w.clock
  others : ∀ j, j ≠ i → w'.sessions j = w.sessions j
  rows : ∀ j key, w.rowLocks key = some j → w'.rowLocks key = some j
  progress : ∀ j source, w.progressLocks source = some j → w'.progressLocks source = some j

theorem Local.keeps {i : Nat} (h : Local i w w') (j : Nat) : Keeps j w w' := by
  refine ⟨?_, h.rows j, ?_, ?_, Nat.le_of_eq h.clock.symm⟩
  · intro key old hj
    rw [h.jobs]
    exact ⟨old, hj, .refl old, fun _ => rfl⟩
  · intro source hp
    rw [h.pages]
    exact ⟨h.progress j source hp, rfl⟩
  · rw [h.issued]
    exact fun l hl => hl

/-- A session moves on, and knows what its phase says. -/
structure Moves (enabled : UUID → UUID → Bool) (digest : Bytes → Bytes) (i : Nat) (w w' : World) : Prop where
  frame : Local i w w'
  knows : ∀ txn, w'.sessions i = some txn → Knows enabled digest w' i txn

end Keeps

/-! ## Statements -/

section Statements

variable {enabled : UUID → UUID → Bool} {digest : Bytes → Bytes} {w w' w₁ : World} {i : Nat}

theorem Local.refl (i : Nat) (w : World) : Local i w w :=
  ⟨rfl, rfl, rfl, rfl, fun _ _ => rfl, fun _ _ h => h, fun _ _ h => h⟩

theorem Local.set (h : Local i w w₁) (txn : Transaction) : Local i w (w₁.set i txn) := by
  refine ⟨h.jobs, h.pages, h.issued, h.clock, ?_, h.rows, h.progress⟩
  intro j hj
  exact (Function.update_of_ne hj _ _).trans (h.others j hj)

theorem free_iff {holder : Option Nat} : free i holder = true ↔ ∀ j, holder = some j → j = i := by
  cases holder <;> simp [free]

/-- Taking a free lock takes none from anybody. -/
theorem update_lock {K : Type} [DecidableEq K] {locks : K → Option Nat} {k k' : K} {j : Nat} (hf : free i (locks k) = true)
    (h : locks k' = some j) : Function.update locks k (some i) k' = some j := by
  by_cases hk : k' = k
  · subst hk
    rw [Function.update_self, free_iff.mp hf j h]
  · rw [Function.update_of_ne hk, h]

theorem lockRow_local {key : JobKey} (hf : free i (w.rowLocks key) = true) : Local i w (w.lockRow i key) :=
  ⟨rfl, rfl, rfl, rfl, fun _ _ => rfl, fun _ _ h => update_lock hf h, fun _ _ h => h⟩

theorem lockRow_own (w : World) (i : Nat) (key : JobKey) : (w.lockRow i key).rowLocks key = some i := by
  simp only [World.lockRow, Function.update_self]

theorem lockProgress_own (w : World) (i : Nat) (source : SourceKey) : (w.lockProgress i source).progressLocks source = some i := by
  simp only [World.lockProgress, Function.update_self]

theorem lockProgress_local {source : SourceKey} (hf : free i (w.progressLocks source) = true) :
    Local i w (w.lockProgress i source) :=
  ⟨rfl, rfl, rfl, rfl, fun _ _ => rfl, fun _ _ h => h, fun _ _ h => update_lock hf h⟩

theorem Inv.stay (h : Inv enabled digest w) : Moves enabled digest i w w := ⟨.refl i w, fun txn htxn => h.sessions i txn htxn⟩

/-- A session goes on to a phase. -/
theorem Local.goto {phase : Phase} (hl : Local i w w₁)
    (hk : PhaseKnows enabled (w₁.goto i phase) i phase) : Moves enabled digest i w (w₁.goto i phase) := by
  refine ⟨hl.set _, ?_⟩
  intro txn htxn
  obtain rfl : (⟨phase, .nothing⟩ : Transaction) = txn := Option.some.inj ((Function.update_self i _ w₁.sessions).symm.trans htxn)
  exact ⟨hk, trivial⟩

/-- A session has written, and returns. -/
theorem Local.write {written : Written} (hl : Local i w w₁)
    (hk : WrittenKnows digest (w₁.write i written) i written) : Moves enabled digest i w (w₁.write i written) := by
  refine ⟨hl.set _, ?_⟩
  intro txn htxn
  obtain rfl : (⟨.returned, written⟩ : Transaction) = txn := Option.some.inj ((Function.update_self i _ w₁.sessions).symm.trans htxn)
  exact ⟨trivial, hk⟩

theorem write_nothing_moves : Moves enabled digest i w (w.write i .nothing) := (Local.refl i w).write trivial

/-- A selection takes a row that is free and meets its condition. -/
theorem select_some {condition : JobKey → Job → Bool} {due : Job → Nat} {key : JobKey} {job : Job}
    (h : w.select i condition due = some (key, job)) :
    w.jobs key = some job ∧ free i (w.rowLocks key) = true ∧ condition key job = true := by
  have hmem := List.mem_of_head? h
  rw [List.mem_mergeSort, List.mem_filter, List.mem_filterMap] at hmem
  obtain ⟨⟨key', -, hentry⟩, hopen⟩ := hmem
  obtain ⟨job', hjob, heq⟩ := Option.map_eq_some_iff.mp hentry
  obtain ⟨rfl, rfl⟩ := Prod.mk.inj heq
  exact ⟨hjob, (Bool.and_eq_true _ _).mp hopen⟩

theorem claimStart_moves {c : ClaimCall} : Moves enabled digest i w (claimStart enabled w i c) := by
  unfold claimStart
  split
  · rename_i key job hs
    obtain ⟨hj, hfree, hc⟩ := select_some hs
    simp only [World.reclaimable, Bool.and_eq_true, decide_eq_true_eq] at hc
    refine (lockRow_local hfree).goto ⟨lockRow_own w i key, Option.isSome_iff_exists.mpr ⟨job, hj⟩, ?_, hc.1.1.1.2.2⟩
    intro havailable
    simp [Job.inProgress, havailable] at hc
  · exact (Local.refl i w).goto trivial

theorem firstStart_moves {c : ClaimCall} : Moves enabled digest i w (firstStart enabled w i c) := by
  unfold firstStart
  split
  · rename_i key job hs
    obtain ⟨hj, hfree, -⟩ := select_some hs
    exact (lockRow_local hfree).goto ⟨lockRow_own w i key, Option.isSome_iff_exists.mpr ⟨job, hj⟩⟩
  · exact write_nothing_moves

/-- The fence is taken over the Source of the selected job. -/
theorem claimFence_moves {c : ClaimCall} {key : JobKey} {phase : Phase} (h : Inv enabled digest w)
    (hp : ∀ job, w.jobs key = some job → free i (w.progressLocks (sourceKey key job)) = true →
      PhaseKnows enabled (w.lockProgress i (sourceKey key job)) i phase)
    (hframe : ∀ w, PhaseKnows enabled w i phase → PhaseKnows enabled (w.goto i phase) i phase) :
    Moves enabled digest i w (claimFence w i c key phase) := by
  unfold claimFence
  split
  · rename_i job hj
    split
    · split
      · rename_i hfree
        exact (lockProgress_local hfree).goto (hframe _ (hp job hj hfree))
      · exact h.stay
    · exact write_nothing_moves
  · exact write_nothing_moves

theorem selected_moves {c : ClaimCall} {key : JobKey} {state : JobState} {resume : Option JobState} {generation : Nat}
    (h : Inv enabled digest w) (hk : PhaseKnows enabled w i (.selected c key state resume generation)) :
    Moves enabled digest i w (claimFence w i c key (.fenced c key state resume generation)) := by
  obtain ⟨hrow, -, hlo, hhi⟩ := hk
  refine claimFence_moves h ?_ fun _ hp => hp
  intro job hj hfree
  exact ⟨(lockProgress_local hfree).rows i key hrow, hlo, hhi, job, hj, lockProgress_own w i _⟩

theorem firstSelected_moves {c : ClaimCall} {key : JobKey} (h : Inv enabled digest w)
    (hk : PhaseKnows enabled w i (.firstSelected c key)) : Moves enabled digest i w (claimFence w i c key (.firstFenced c key)) := by
  refine claimFence_moves h ?_ fun _ hp => hp
  intro job hj hfree
  exact ⟨(lockProgress_local hfree).rows i key hk.1, job, hj, lockProgress_own w i _⟩

/-! ### Claims -/

theorem truncSecond_le (t : Timestamp) : truncSecond t ≤ t := Nat.div_mul_le_self t MICROS

/-- A whole second that is not after the clock is not after the clock's second. -/
theorem le_truncSecond {due clock : Timestamp} (hd : MICROS ∣ due) (h : due ≤ clock) : due ≤ truncSecond clock := by
  obtain ⟨k, rfl⟩ := hd
  have hk : k ≤ clock / MICROS := (Nat.le_div_iff_mul_le (by decide)).mpr (by rw [Nat.mul_comm]; exact h)
  rw [Nat.mul_comm]
  exact Nat.mul_le_mul_right MICROS hk

theorem dueAt_whole {expiresAt : Timestamp} (h : MICROS ∣ expiresAt) (generation : Nat) : MICROS ∣ dueAt expiresAt generation :=
  Nat.dvd_add h (Nat.dvd_mul_left MICROS _)

theorem due_iff {job : Job} {now : Timestamp} : job.due now = true ↔
    ∃ columns, job.lease = some columns ∧ dueAt columns.expiresAt job.leaseGeneration ≤ now := by
  rw [Job.due, Option.any_eq_true]
  simp only [decide_eq_true_eq]

/-- What every claim writes, whichever way the job was found. -/
theorem claims_of {c : ClaimCall} {key : JobKey} {job : Job} {resume : Option JobState} {clock : Timestamp}
    (hscheduled : job.changePageRef.isSome = true) (hbound : job.leaseGeneration + 1 ≤ MAX_GENERATION)
    (hresume : resume.getD .running = job.resume)
    (hdue : job.leaseGeneration ≠ 0 →
      ∃ columns, job.lease = some columns ∧ MICROS ∣ columns.expiresAt ∧ dueAt columns.expiresAt job.leaseGeneration ≤ clock) :
    Claims digest job (job.claim (c.columns digest clock) (job.leaseGeneration + 1) resume)
      (c.lease key job (job.leaseGeneration + 1) clock) clock := by
  refine ⟨⟨⟨rfl, rfl, rfl, rfl⟩, .inl (Nat.lt_succ_self _)⟩, ⟨rfl, rfl, hscheduled, Nat.le_add_left _ _, Nat.le_add_right _ _, .inr ⟨rfl, rfl⟩⟩,
    rfl, rfl, hbound, rfl, hresume, truncSecond_le clock, ?_, ?_⟩
  · exact Nat.dvd_add (Nat.dvd_mul_left MICROS _) (Nat.dvd_mul_left MICROS _)
  · intro hgen
    obtain ⟨columns, hl, hwhole, hd⟩ := hdue hgen
    exact ⟨columns, hl, le_truncSecond (dueAt_whole hwhole _) hd⟩

theorem eligible_iff {key : JobKey} {job : Job} {now : Timestamp} (h : w.eligible enabled key job now = true) :
    job.changePageRef.isSome = true ∧ currentEpoch (w.pages (sourceKey key job)) job = true := by
  simp only [World.eligible, Bool.and_eq_true] at h
  exact ⟨h.1.1.1, h.2⟩

/-- The state that a reclaim resumes is the one that the job was in, or would have resumed. -/
theorem resume_reclaimed {job : Job} (hs : job.state ≠ .available) :
    (if job.state = .leased then job.recoveryFromState else some job.state).getD .running = job.resume := by
  cases hstate : job.state <;> simp [Job.resume, hstate] at hs ⊢

theorem reclaim_moves {c : ClaimCall} {key : JobKey} {state : JobState} {resume : Option JobState} {generation : Nat}
    (h : Inv enabled digest w) (hk : PhaseKnows enabled w i (.fenced c key state resume generation)) :
    Moves enabled digest i w (reclaim enabled digest w i c key state resume generation) := by
  obtain ⟨hrow, hstate, hmax, job, hj, hp⟩ := hk
  rw [reclaim, hj]
  dsimp only
  split
  · rename_i hc
    simp only [Bool.and_eq_true, decide_eq_true_eq] at hc
    obtain ⟨⟨⟨⟨⟨⟨rfl, rfl, rfl⟩, -⟩, hdue⟩, he⟩, -⟩, -⟩ := hc
    obtain ⟨hscheduled, hepoch⟩ := eligible_iff he
    refine (Local.refl i w).write ⟨hrow, job, hj, ⟨hp, hepoch⟩, ?_⟩
    refine claims_of hscheduled ?_ (resume_reclaimed hstate) ?_
    · exact Nat.succ_le_of_lt (Nat.lt_of_le_of_lt hmax (by decide))
    · intro hgen
      obtain ⟨columns, hl, hd⟩ := due_iff.mp hdue
      exact ⟨columns, hl, h.whole key job columns hj hl, hd⟩
  · exact write_nothing_moves

theorem dispatchFirst_moves {c : ClaimCall} {key : JobKey}
    (hk : PhaseKnows enabled w i (.firstFenced c key)) : Moves enabled digest i w (dispatchFirst enabled digest w i c key) := by
  obtain ⟨hrow, job, hj, hp⟩ := hk
  rw [dispatchFirst, hj]
  dsimp only
  split
  · rename_i hc
    simp only [World.dispatchable, Bool.and_eq_true, decide_eq_true_eq] at hc
    obtain ⟨⟨⟨⟨⟨hstate, hgen⟩, -⟩, he⟩, -⟩, -⟩ := hc
    obtain ⟨hscheduled, hepoch⟩ := eligible_iff he
    refine (Local.refl i w).write ⟨hrow, job, hj, ⟨hp, hepoch⟩, ?_⟩
    have hone : 1 = job.leaseGeneration + 1 := by rw [hgen]
    rw [hone]
    refine claims_of hscheduled (by rw [hgen]; decide) ?_ (fun hno => absurd hgen hno)
    rw [Job.resume, hstate]
  · exact write_nothing_moves

/-! ### Redemption, progress and acceptance -/

theorem redeemStart_moves {l : Lease} {at' : Timestamp} (h : Inv enabled digest w) (hl : l ∈ w.issued) :
    Moves enabled digest i w (redeemStart enabled digest w i l at') := by
  obtain ⟨job, hj, hissued⟩ := h.issued l hl
  rw [redeemStart, hj]
  dsimp only
  split
  · obtain ⟨ref, href⟩ := Option.isSome_iff_exists.mp hissued.scheduled
    rw [href]
    exact (Local.refl i w).goto hl
  · rename_i hr
    exact (Local.refl i w).goto ⟨hl, job, hj, .inr (hissued.dead (Bool.not_eq_true _ ▸ hr))⟩

theorem redeemFence_moves {l : Lease} {ref : String} (h : Inv enabled digest w) (hl : l ∈ w.issued) :
    Moves enabled digest i w (redeemFence w i l ref) := by
  unfold redeemFence
  split
  · rename_i hfree
    exact (lockProgress_local hfree).goto ⟨hl, lockProgress_own w i l.source⟩
  · exact h.stay

theorem redeemCheck_moves {l : Lease} {at' : Timestamp} {ref : String}
    (hk : PhaseKnows enabled w i (.redeemFenced l at' ref)) : Moves enabled digest i w (redeemCheck w i l at' ref) := by
  unfold redeemCheck
  split
  · rename_i job hj
    split
    · rename_i hc
      simp only [Bool.and_eq_true, decide_eq_true_eq] at hc
      obtain ⟨⟨hsource, -⟩, hepoch⟩ := hc
      have hkey : sourceKey l.key job = l.source := by rw [sourceKey, hsource]; rfl
      refine (Local.refl i w).goto ⟨hk.1, job, hj, .inl ⟨?_, ?_⟩⟩
      · rw [hkey]
        exact hk.2
      · rw [hkey]
        exact hepoch
    · exact (Local.refl i w).goto trivial
  · exact (Local.refl i w).goto trivial

theorem redeemUpdate_moves {l : Lease} {at' : Timestamp} (h : Inv enabled digest w)
    (hk : PhaseKnows enabled w i (.redeemUpdate l at')) : Moves enabled digest i w (redeemUpdate enabled digest w i l at') := by
  obtain ⟨-, job, hj, hknows⟩ := hk
  rw [redeemUpdate, hj]
  dsimp only
  split
  · rename_i hr
    -- A lease that was dead before the fence is still dead, so the guard was passed.
    have hf : Fenced w i l.key job := by
      rcases hknows with hf | hd
      · exact hf
      · rw [hd.not_redeemable] at hr
        cases hr
    split
    · rename_i hfree
      simp only [Job.redeemable, Bool.and_eq_true, decide_eq_true_eq] at hr
      exact (lockRow_local hfree).write ⟨lockRow_own w i l.key, job, at', hj, ⟨hf.progress, hf.epoch⟩, hr.1.1.1, hr.1.1.2, rfl⟩
    · exact h.stay
  · exact write_nothing_moves

theorem progressUpdate_moves {l : Lease} {target : JobState} {now : Timestamp} (h : Inv enabled digest w) :
    Moves enabled digest i w (progressUpdate enabled digest w i l target now) := by
  unfold progressUpdate
  split
  · rename_i job hj
    split
    · rename_i ha
      split
      · rename_i hfree
        simp only [Job.advanceable, Bool.and_eq_true, decide_eq_true_eq] at ha
        exact (lockRow_local hfree).write ⟨lockRow_own w i l.key, job, hj, ha.1.1.1, rfl⟩
      · exact h.stay
    · exact write_nothing_moves
  · exact write_nothing_moves

theorem acceptFence_moves {source : SourceKey} {page : AcceptedPage} (h : Inv enabled digest w) :
    Moves enabled digest i w (acceptFence w i source page) := by
  unfold acceptFence
  split
  · rename_i hfree
    exact (lockProgress_local hfree).goto (lockProgress_own w i source)
  · exact h.stay

/-- One statement of one session. -/
theorem next_moves (h : Inv enabled digest w) : Moves enabled digest i w (next enabled digest w i) := by
  unfold next
  split
  · rename_i txn htxn
    have hk := (h.sessions i txn htxn).phase
    split <;> rename_i hphase <;> rw [hphase] at hk
    · exact claimStart_moves
    · exact selected_moves h hk
    · exact reclaim_moves h hk
    · exact firstStart_moves
    · exact firstSelected_moves h hk
    · exact dispatchFirst_moves hk
    · exact redeemStart_moves h hk
    · exact redeemFence_moves h hk
    · exact redeemCheck_moves hk
    · exact redeemUpdate_moves h hk
    · exact progressUpdate_moves h
    · exact acceptFence_moves h
    · exact (Local.refl i w).write hk
    · exact h.stay
    · exact h.stay
  · exact h.stay

end Statements

/-! ## What a step does -/

/-- What a step does to the rows, under the reply that it gives. -/
inductive Effect (digest : Bytes → Bytes) (w w' : World) : Reply → Prop
  | nothing (hissued : w'.issued = w.issued)
      (hjobs : ∀ key, w'.jobs key = w.jobs key ∨ w.jobs key = none ∧ ∃ job, w'.jobs key = some job ∧ job.fresh = true) :
      Effect digest w w' .nothing
  | claimed (old new : Job) (l : Lease) (hold : w.jobs l.key = some old)
      (hepoch : currentEpoch (w.pages l.source) old = true) (hclaims : Claims digest old new l w.clock)
      (hissued : w'.issued = w.issued ++ [l]) (hjobs : w'.jobs = Function.update w.jobs l.key (some new)) :
      Effect digest w w' (.claimed l)
  | redeemed (old : Job) (at' : Timestamp) (l : Lease) (hold : w.jobs l.key = some old)
      (hepoch : currentEpoch (w.pages l.source) old = true) (hstate : old.state = .leased) (hunder : old.under digest l = true)
      (hissued : w'.issued = w.issued) (hjobs : w'.jobs = Function.update w.jobs l.key (some (old.redeem at'))) :
      Effect digest w w' (.redeemed l (old.redeem at').state)
  | advanced (old new : Job) (l : Lease) (hold : w.jobs l.key = some old) (hbefore : before new.state = some old.state)
      (hnew : new = { old with state := new.state }) (hissued : w'.issued = w.issued)
      (hjobs : w'.jobs = Function.update w.jobs l.key (some new)) : Effect digest w w' (.advanced l new.state)
  | accepted (source : SourceKey) (page : AcceptedPage) (hissued : w'.issued = w.issued) (hjobs : w'.jobs = w.jobs) :
      Effect digest w w' (.accepted source page)

section Effects

variable {enabled : UUID → UUID → Bool} {digest : Bytes → Bytes} {w w' : World} {i : Nat}

theorem redeem_evolves {job : Job} (at' : Timestamp) (h : job.state = .leased) : Evolves job (job.redeem at') :=
  ⟨⟨rfl, rfl, rfl, rfl⟩, .inr ⟨rfl, rfl, fun hno => absurd h hno⟩⟩

theorem before_some {target state : JobState} (h : before target = some state) :
    target ≠ .leased ∧ state ≠ .available ∧ state ≠ .leased := by
  cases target <;> simp only [before, reduceCtorEq, Option.some.injEq] at h <;> subst h <;> decide

theorem advance_evolves {old new : Job} (hb : before new.state = some old.state) (hn : new = { old with state := new.state }) :
    Evolves old new := by
  rw [hn]
  exact ⟨⟨rfl, rfl, rfl, rfl⟩, .inr ⟨rfl, rfl, fun _ => (before_some hb).1⟩⟩

/-- Every row evolves, and keeps its lease unless it is claimed. -/
theorem Effect.evolves {reply : Reply} (h : Effect digest w w' reply) {key : JobKey} {old : Job} (hold : w.jobs key = some old) :
    ∃ new, w'.jobs key = some new ∧ Evolves old new ∧
      ((∀ l, reply = .claimed l → l.key ≠ key) → new.leaseGeneration = old.leaseGeneration ∧ new.lease = old.lease) := by
  have hsame : w'.jobs key = w.jobs key → ∃ new, w'.jobs key = some new ∧ Evolves old new ∧
      ((∀ l, reply = .claimed l → l.key ≠ key) → new.leaseGeneration = old.leaseGeneration ∧ new.lease = old.lease) :=
    fun heq => ⟨old, heq.trans hold, .refl old, fun _ => ⟨rfl, rfl⟩⟩
  cases h with
  | nothing hissued hjobs =>
    rcases hjobs key with heq | ⟨hnone, -⟩
    · exact hsame heq
    · rw [hold] at hnone
      cases hnone
  | claimed old' new l hold' hepoch hclaims hissued hjobs =>
    by_cases hk : key = l.key
    · subst hk
      obtain rfl : old' = old := Option.some.inj (hold'.symm.trans hold)
      refine ⟨new, ?_, hclaims.evolves, fun hno => absurd rfl (hno l rfl)⟩
      rw [hjobs, Function.update_self]
    · exact hsame (by rw [hjobs, Function.update_of_ne hk])
  | redeemed old' at' l hold' hepoch hstate hunder hissued hjobs =>
    by_cases hk : key = l.key
    · subst hk
      obtain rfl : old' = old := Option.some.inj (hold'.symm.trans hold)
      refine ⟨old'.redeem at', ?_, redeem_evolves at' hstate, fun _ => ⟨rfl, rfl⟩⟩
      rw [hjobs, Function.update_self]
    · exact hsame (by rw [hjobs, Function.update_of_ne hk])
  | advanced old' new l hold' hbefore hnew hissued hjobs =>
    by_cases hk : key = l.key
    · subst hk
      obtain rfl : old' = old := Option.some.inj (hold'.symm.trans hold)
      refine ⟨new, ?_, advance_evolves hbefore hnew, fun _ => by rw [hnew]; exact ⟨rfl, rfl⟩⟩
      rw [hjobs, Function.update_self]
    · exact hsame (by rw [hjobs, Function.update_of_ne hk])
  | accepted source page hissued hjobs => exact hsame (by rw [hjobs])

/-- A lease that is claimed comes after all that were issued for its job. -/
theorem Claims.after_issued {old new : Job} {l l' : Lease} (h : Inv enabled digest w) (hold : w.jobs l.key = some old)
    (hc : Claims digest old new l w.clock) (hl' : l' ∈ w.issued) (hkey : l'.key = l.key) :
    l'.leaseGeneration < l.leaseGeneration ∧ dueAt l'.expiresAt l'.leaseGeneration ≤ l.issuedAt := by
  obtain ⟨job, hj, hissued⟩ := h.issued l' hl'
  rw [hkey] at hj
  obtain rfl : job = old := Option.some.inj (hj.symm.trans hold)
  have hle : l'.leaseGeneration ≤ job.leaseGeneration := by
    rcases hissued.current with hlt | ⟨heq, -⟩ <;> omega
  have hpos := hissued.positive
  obtain ⟨columns, hcolumns, hdue⟩ := hc.due (by omega)
  refine ⟨by rw [hc.leaseGeneration, hc.generation]; omega, ?_⟩
  rcases hissued.current with hlt | ⟨heq, hlease⟩
  · -- An older lease: the current one was issued in between.
    obtain ⟨last, hlast, hlastKey, hlastGen⟩ := h.witnessed l.key job hold (by omega)
    obtain ⟨job', hj', hlastFor⟩ := h.issued last hlast
    rw [hlastKey] at hj'
    obtain rfl : job' = job := Option.some.inj (hj'.symm.trans hold)
    obtain ⟨-, hlastLease⟩ := hlastFor.current.resolve_left (by omega)
    obtain rfl : _ = columns := Option.some.inj (hlastLease.symm.trans hcolumns)
    calc dueAt l'.expiresAt l'.leaseGeneration
        ≤ last.issuedAt := h.spaced.spaced l' hl' last hlast (hkey.trans hlastKey.symm) (by omega)
      _ ≤ last.expiresAt := hlastFor.term
      _ ≤ dueAt last.expiresAt job'.leaseGeneration := Nat.le_add_right _ _
      _ ≤ l.issuedAt := hdue
  · obtain rfl : _ = columns := Option.some.inj (hlease.symm.trans hcolumns)
    rw [heq]
    exact hdue

/-- The new lease is the one that the row is under. -/
theorem Claims.lease {old new : Job} {l : Lease} {clock : Timestamp} (hc : Claims digest old new l clock) :
    new.lease = some ⟨l.signingKeyVersion, digest l.nonce, l.issuedAt, l.expiresAt⟩ :=
  (hc.issued.current.resolve_left (by rw [hc.leaseGeneration]; exact lt_irrefl _)).2

theorem Spaced.snoc {issued : List Lease} {l : Lease} (h : Spaced issued)
    (hl : ∀ l' ∈ issued, l'.key = l.key → l'.leaseGeneration < l.leaseGeneration ∧ dueAt l'.expiresAt l'.leaseGeneration ≤ l.issuedAt) :
    Spaced (issued ++ [l]) := by
  refine ⟨?_, ?_⟩
  · intro a ha b hb hkey hgen
    rcases List.mem_append.mp ha with ha | ha <;> rcases List.mem_append.mp hb with hb | hb
    · exact h.spaced a ha b hb hkey hgen
    · rw [List.mem_singleton.mp hb] at hkey ⊢
      exact (hl a ha hkey).2
    · rw [List.mem_singleton.mp ha] at hkey hgen
      exact absurd hgen (hl b hb hkey.symm).1.asymm
    · rw [List.mem_singleton.mp ha, List.mem_singleton.mp hb] at hgen
      exact absurd hgen (lt_irrefl _)
  · intro a ha b hb hkey hgen
    rcases List.mem_append.mp ha with ha | ha <;> rcases List.mem_append.mp hb with hb | hb
    · exact h.unique a ha b hb hkey hgen
    · rw [List.mem_singleton.mp hb] at hkey hgen
      exact absurd hgen (hl a ha hkey).1.ne
    · rw [List.mem_singleton.mp ha] at hkey hgen
      exact absurd hgen.symm (hl b hb hkey.symm).1.ne
    · rw [List.mem_singleton.mp ha, List.mem_singleton.mp hb]

/-- A row is as it was, new, or written under the reply. -/
theorem Effect.row {reply : Reply} (h : Effect digest w w' reply) {key : JobKey} {new : Job} (hnew : w'.jobs key = some new) :
    (∃ old, w.jobs key = some old ∧ new.leaseGeneration = old.leaseGeneration ∧ new.lease = old.lease) ∨
      new.leaseGeneration = 0 ∧ new.lease = none ∨
      ∃ old l, reply = .claimed l ∧ l.key = key ∧ w.jobs key = some old ∧ Claims digest old new l w.clock := by
  cases hold : w.jobs key with
  | none =>
    cases h with
    | nothing hissued hjobs =>
      rcases hjobs key with heq | ⟨-, job, hjob, hfresh⟩
      · rw [heq, hold] at hnew
        cases hnew
      · obtain rfl : job = new := Option.some.inj (hjob.symm.trans hnew)
        simp only [Job.fresh, decide_eq_true_eq] at hfresh
        exact .inr (.inl ⟨hfresh.2.1, hfresh.2.2.2⟩)
    | claimed old' new' l hold' hepoch hclaims hissued hjobs =>
      have hk : key ≠ l.key := fun hk => by rw [hk, hold'] at hold; cases hold
      rw [hjobs, Function.update_of_ne hk, hold] at hnew
      cases hnew
    | redeemed old' at' l hold' hepoch hstate hunder hissued hjobs =>
      have hk : key ≠ l.key := fun hk => by rw [hk, hold'] at hold; cases hold
      rw [hjobs, Function.update_of_ne hk, hold] at hnew
      cases hnew
    | advanced old' new' l hold' hbefore hnew' hissued hjobs =>
      have hk : key ≠ l.key := fun hk => by rw [hk, hold'] at hold; cases hold
      rw [hjobs, Function.update_of_ne hk, hold] at hnew
      cases hnew
    | accepted source page hissued hjobs =>
      rw [hjobs, hold] at hnew
      cases hnew
  | some old =>
    obtain ⟨new', hnew', -, hkept⟩ := h.evolves hold
    obtain rfl : new' = new := Option.some.inj (hnew'.symm.trans hnew)
    by_cases hc : ∃ l, reply = .claimed l ∧ l.key = key
    · obtain ⟨l, rfl, rfl⟩ := hc
      cases h with
      | claimed old' new l hold' hepoch hclaims hissued hjobs =>
        obtain rfl : old' = old := Option.some.inj (hold'.symm.trans hold)
        rw [hjobs, Function.update_self] at hnew
        obtain rfl := Option.some.inj hnew
        exact .inr (.inr ⟨old', l, rfl, rfl, rfl, hclaims⟩)
    · exact .inl ⟨old, rfl, hkept fun l hl hk => hc ⟨l, hl, hk⟩⟩

/-- Every lease was issued before, or is the one that the reply names. -/
theorem Effect.mem_issued {reply : Reply} (h : Effect digest w w' reply) {l : Lease} :
    l ∈ w'.issued ↔ l ∈ w.issued ∨ reply = .claimed l := by
  cases h with
  | claimed old new l' hold hepoch hclaims hissued hjobs =>
    rw [hissued, List.mem_append, List.mem_singleton, Reply.claimed.injEq]
    exact or_congr_right eq_comm
  | nothing hissued | redeemed _ _ _ _ _ _ _ hissued | advanced _ _ _ _ _ _ hissued | accepted _ _ hissued => simp [hissued]

theorem Effect.claims {l : Lease} (h : Effect digest w w' (.claimed l)) : ∃ old new, w.jobs l.key = some old ∧
    w'.jobs l.key = some new ∧ currentEpoch (w.pages l.source) old = true ∧ Claims digest old new l w.clock ∧
    w'.issued = w.issued ++ [l] := by
  cases h with
  | claimed old new l hold hepoch hclaims hissued hjobs =>
    exact ⟨old, new, hold, by rw [hjobs, Function.update_self], hepoch, hclaims, hissued⟩

theorem Effect.spaced {reply : Reply} (he : Effect digest w w' reply) (h : Inv enabled digest w) : Spaced w'.issued := by
  cases he with
  | claimed old new l hold hepoch hclaims hissued hjobs =>
    rw [hissued]
    exact h.spaced.snoc fun l' hl' hkey => hclaims.after_issued h hold hl' hkey
  | nothing hissued | redeemed _ _ _ _ _ _ _ hissued | advanced _ _ _ _ _ _ hissued | accepted _ _ hissued =>
    rw [hissued]
    exact h.spaced

/-- A step keeps what is known of the rows and the leases; what the sessions know is theirs to show. -/
theorem Effect.inv {reply : Reply} (he : Effect digest w w' reply) (h : Inv enabled digest w) (hclock : w.clock ≤ w'.clock)
    (hs : ∀ j txn, w'.sessions j = some txn → Knows enabled digest w' j txn) : Inv enabled digest w' := by
  refine ⟨?_, he.spaced h, ?_, ?_, ?_, hs⟩
  · intro l hl
    rcases he.mem_issued.mp hl with hl | rfl
    · obtain ⟨old, hold, hissued⟩ := h.issued l hl
      obtain ⟨new, hnew, hevolves, -⟩ := he.evolves hold
      exact ⟨new, hnew, hissued.evolve hevolves⟩
    · obtain ⟨old, new, -, hnew, -, hclaims, -⟩ := he.claims
      exact ⟨new, hnew, hclaims.issued⟩
  · intro l hl
    rcases he.mem_issued.mp hl with hl | rfl
    · exact (h.minted l hl).trans hclock
    · obtain ⟨old, new, -, -, -, hclaims, -⟩ := he.claims
      exact hclaims.minted.trans hclock
  · intro key new columns hnew hlease
    rcases he.row hnew with ⟨old, hold, -, heq⟩ | ⟨-, hnone⟩ | ⟨old, l, -, -, -, hclaims⟩
    · exact h.whole key old columns hold (heq ▸ hlease)
    · rw [hnone] at hlease
      cases hlease
    · obtain rfl := Option.some.inj (hclaims.lease.symm.trans hlease)
      exact hclaims.whole
  · intro key new hnew hgen
    rcases he.row hnew with ⟨old, hold, heq, -⟩ | ⟨hzero, -⟩ | ⟨old, l, hreply, hkey, -, hclaims⟩
    · obtain ⟨l, hl, hkey, hlgen⟩ := h.witnessed key old hold (heq ▸ hgen)
      exact ⟨l, he.mem_issued.mpr (.inl hl), hkey, hlgen.trans heq.symm⟩
    · exact absurd hzero hgen
    · exact ⟨l, he.mem_issued.mpr (.inr hreply), hkey, hclaims.leaseGeneration⟩

/-! ## One step -/

theorem Moves.effect (h : Moves enabled digest i w w') : Effect digest w w' .nothing :=
  .nothing h.frame.issued fun key => .inl (by rw [h.frame.jobs])

theorem Moves.inv (hm : Moves enabled digest i w w') (h : Inv enabled digest w) : Inv enabled digest w' := by
  refine hm.effect.inv h (Nat.le_of_eq hm.frame.clock.symm) ?_
  intro j txn hj
  by_cases hji : j = i
  · subst hji
    exact hm.knows txn hj
  · rw [hm.frame.others j hji] at hj
    exact (h.sessions j txn hj).keep (hm.frame.keeps j)

theorem begin_moves {phase : Phase} (h : Inv enabled digest w) (hp : PhaseKnows enabled (w.goto i phase) i phase) :
    Moves enabled digest i w (w.begin i phase) := by
  unfold World.begin
  split
  · exact h.stay
  · exact (Local.refl i w).goto hp

theorem release_other {j : Nat} (hj : j ≠ i) {holder : Option Nat} (h : holder = some j) : release i holder = some j := by
  rw [h, release, if_neg (fun heq => hj (Option.some.inj heq))]

/-- What a transaction's end leaves to the others: `w'` is the state with its writes. -/
structure Ends (i : Nat) (w w' : World) : Prop where
  clock : w'.clock = w.clock
  sessions : w'.sessions = Function.update w.sessions i none
  rows : ∀ key, w'.rowLocks key = release i (w.rowLocks key)
  progress : ∀ source, w'.progressLocks source = release i (w.progressLocks source)
  jobs : ∀ key, w'.jobs key = w.jobs key ∨ w.rowLocks key = some i
  pages : ∀ source, w'.pages source = w.pages source ∨ w.progressLocks source = some i

theorem Ends.keeps {reply : Reply} (h : Ends i w w') (he : Effect digest w w' reply) {j : Nat} (hj : j ≠ i) : Keeps j w w' := by
  refine ⟨?_, ?_, ?_, ?_, Nat.le_of_eq h.clock.symm⟩
  · intro key old hold
    obtain ⟨new, hnew, hevolves, -⟩ := he.evolves hold
    refine ⟨new, hnew, hevolves, ?_⟩
    intro hrow
    rcases h.jobs key with heq | hown
    · rw [heq, hold] at hnew
      exact (Option.some.inj hnew).symm
    · exact absurd (Option.some.inj (hrow.symm.trans hown)) hj
  · intro key hrow
    rw [h.rows]
    exact release_other hj hrow
  · intro source hp
    refine ⟨?_, (h.pages source).resolve_right ?_⟩
    · rw [h.progress]
      exact release_other hj hp
    · exact fun hown => hj (Option.some.inj (hp.symm.trans hown))
  · exact fun l hl => he.mem_issued.mpr (.inl hl)

theorem Ends.inv {reply : Reply} (hends : Ends i w w') (he : Effect digest w w' reply) (h : Inv enabled digest w) :
    Inv enabled digest w' := by
  refine he.inv h (Nat.le_of_eq hends.clock.symm) ?_
  intro j txn hj
  rw [hends.sessions] at hj
  by_cases hji : j = i
  · rw [hji, Function.update_self] at hj
    cases hj
  · rw [Function.update_of_ne hji] at hj
    exact (h.sessions j txn hj).keep (hends.keeps he hji)

theorem close_ends (w : World) (i : Nat) : Ends i w (w.close i) :=
  ⟨rfl, rfl, fun _ => rfl, fun _ => rfl, fun _ => .inl rfl, fun _ => .inl rfl⟩

theorem close_effect (w : World) (i : Nat) : Effect digest w (w.close i) .nothing := .nothing rfl fun _ => .inl rfl

/-- A job is written by the session that has its row. -/
theorem close_ends_job {key : JobKey} (hrow : w.rowLocks key = some i) (job : Job) (issued : List Lease) :
    Ends i w { w.close i with jobs := Function.update w.jobs key (some job), issued := issued } := by
  refine ⟨rfl, rfl, fun _ => rfl, fun _ => rfl, ?_, fun _ => .inl rfl⟩
  intro key'
  by_cases hk : key' = key
  · exact .inr (hk ▸ hrow)
  · exact .inl (Function.update_of_ne hk _ _)

theorem close_ends_pages {source : SourceKey} (hp : w.progressLocks source = some i) (pages : List AcceptedPage) :
    Ends i w { w.close i with pages := Function.update w.pages source pages } := by
  refine ⟨rfl, rfl, fun _ => rfl, fun _ => rfl, fun _ => .inl rfl, ?_⟩
  intro source'
  by_cases hs : source' = source
  · exact .inr (hs ▸ hp)
  · exact .inl (Function.update_of_ne hs _ _)

/-- A commit does what its function has written. -/
theorem commit_spec (h : Inv enabled digest w) :
    Effect digest w (commit w i).1 (commit w i).2 ∧ Inv enabled digest (commit w i).1 := by
  have hstay : Effect digest w w .nothing := .nothing rfl fun _ => .inl rfl
  unfold commit
  split
  · rename_i txn htxn
    have hk := (h.sessions i txn htxn).written
    split
    · dsimp only
      split <;> rename_i hw <;> rw [hw] at hk
      · exact ⟨close_effect w i, (close_ends w i).inv (close_effect w i) h⟩
      · rename_i job l
        obtain ⟨hrow, old, hold, hf, hc⟩ := hk
        have he : Effect digest w { w.close i with jobs := Function.update w.jobs l.key (some job), issued := w.issued ++ [l] }
            (.claimed l) := by
          refine .claimed old job l hold ?_ hc rfl rfl
          have hsource : sourceKey l.key old = l.source := by
            rw [sourceKey, ← hc.evolves.same.sourceId, hc.issued.sourceId]
            rfl
          rw [← hsource]
          exact hf.epoch
        exact ⟨he, (close_ends_job hrow job _).inv he h⟩
      · rename_i job l
        obtain ⟨hrow, old, at', hold, hf, hstate, hunder, rfl⟩ := hk
        have he : Effect digest w { w.close i with jobs := Function.update w.jobs l.key (some (old.redeem at')) }
            (.redeemed l (old.redeem at').state) := by
          refine .redeemed old at' l hold ?_ hstate hunder rfl rfl
          have hsource : sourceKey l.key old = l.source := by
            rw [sourceKey, (under_iff.mp hunder).2.1]
            rfl
          rw [← hsource]
          exact hf.epoch
        exact ⟨he, (close_ends_job hrow _ _).inv he h⟩
      · rename_i job l
        obtain ⟨hrow, old, hold, hb, hn⟩ := hk
        have he : Effect digest w { w.close i with jobs := Function.update w.jobs l.key (some job) } (.advanced l job.state) :=
          .advanced old job l hold hb hn rfl rfl
        exact ⟨he, (close_ends_job hrow _ _).inv he h⟩
      · rename_i source page
        have he : Effect digest w { w.close i with pages := Function.update w.pages source (w.pages source ++ [page]) }
            (.accepted source page) := .accepted source page rfl rfl
        exact ⟨he, (close_ends_pages hk _).inv he h⟩
    · exact ⟨close_effect w i, (close_ends w i).inv (close_effect w i) h⟩
    · exact ⟨hstay, h⟩
  · exact ⟨hstay, h⟩

/-- What changes neither the locks nor what the sessions do. -/
theorem frame_spec (h : Inv enabled digest w) (he : Effect digest w w' .nothing) (hclock : w.clock ≤ w'.clock)
    (hsessions : w'.sessions = w.sessions) (hrows : w'.rowLocks = w.rowLocks) (hprogress : w'.progressLocks = w.progressLocks)
    (hpages : w'.pages = w.pages) : Effect digest w w' .nothing ∧ Inv enabled digest w' := by
  refine ⟨he, he.inv h hclock ?_⟩
  intro j txn hj
  rw [hsessions] at hj
  refine (h.sessions j txn hj).keep ⟨?_, ?_, ?_, fun l hl => he.mem_issued.mpr (.inl hl), hclock⟩
  · intro key old hold
    cases he with
    | nothing hissued hjobs =>
      rcases hjobs key with heq | ⟨hnone, -⟩
      · exact ⟨old, heq.trans hold, .refl old, fun _ => rfl⟩
      · rw [hold] at hnone
        cases hnone
  · rw [hrows]
    exact fun _ hrow => hrow
  · rw [hprogress, hpages]
    exact fun _ hp => ⟨hp, rfl⟩

theorem schedule_spec {key : JobKey} {job : Job} (h : Inv enabled digest w) :
    Effect digest w (schedule w key job) .nothing ∧ Inv enabled digest (schedule w key job) := by
  unfold schedule
  split
  · rename_i hc
    obtain ⟨hnone, hfresh⟩ := (Bool.and_eq_true _ _).mp hc
    refine frame_spec h (.nothing rfl ?_) (Nat.le_refl _) rfl rfl rfl rfl
    intro key'
    by_cases hk : key' = key
    · subst hk
      exact .inr ⟨Option.isNone_iff_eq_none.mp hnone, job, Function.update_self key' _ _, hfresh⟩
    · exact .inl (Function.update_of_ne hk _ _)
  · exact ⟨.nothing rfl fun _ => .inl rfl, h⟩

theorem step_spec (h : Inv enabled digest w) (c : Call) :
    Effect digest w (step enabled digest w c).1 (step enabled digest w c).2 ∧ Inv enabled digest (step enabled digest w c).1 := by
  have hmoves {i : Nat} {w' : World} (hm : Moves enabled digest i w w') : Effect digest w w' .nothing ∧ Inv enabled digest w' :=
    ⟨hm.effect, hm.inv h⟩
  cases c with
  | setAuthority authority => exact frame_spec h (.nothing rfl fun _ => .inl rfl) (Nat.le_refl _) rfl rfl rfl rfl
  | advanceClock micros => exact frame_spec h (.nothing rfl fun _ => .inl rfl) (Nat.le_add_right _ _) rfl rfl rfl rfl
  | schedule key job => exact schedule_spec h
  | claim i call =>
    dsimp only [step]
    split
    · exact hmoves (begin_moves h trivial)
    · exact hmoves (h.stay (i := i))
  | redeem i l =>
    dsimp only [step]
    split
    · rename_i hl
      exact hmoves (begin_moves h hl)
    · exact hmoves (h.stay (i := i))
  | progress i l target =>
    dsimp only [step]
    split
    · rename_i hl
      exact hmoves (begin_moves h hl)
    · exact hmoves (h.stay (i := i))
  | accept i source page => exact hmoves (begin_moves h trivial)
  | next i => exact hmoves (next_moves h)
  | commit i => exact commit_spec h
  | rollback i => exact ⟨close_effect w i, (close_ends w i).inv (close_effect w i) h⟩

theorem World.Fresh.inv (h : w.Fresh) : Inv enabled digest w := by
  refine ⟨?_, ⟨?_, ?_⟩, ?_, ?_, ?_, ?_⟩
  · simp [h.issued]
  · simp [h.issued]
  · simp [h.issued]
  · simp [h.issued]
  · simp [h.jobs]
  · simp [h.jobs]
  · simp [h.sessions]

end Effects

/-! ## Progress -/

/-- The states that a job was in. -/
def visited (key : JobKey) (ws : List World) : List JobState := ws.filterMap fun w => (w.jobs key).map (·.state)

theorem visited_snoc (key : JobKey) (ws : List World) (w : World) :
    visited key (ws ++ [w]) = visited key ws ++ ((w.jobs key).map (·.state)).toList := by
  rw [visited, visited, List.filterMap_append]
  cases hj : w.jobs key <;> simp [hj]

theorem furthest_cases (states : List JobState) :
    furthest states = .running ∨ furthest states = .prepared ∨ furthest states = .ready := by
  unfold furthest
  split
  · exact .inr (.inr rfl)
  · split
    · exact .inr (.inl rfl)
    · exact .inl rfl

/-- Waiting, or staying, adds no progress. -/
theorem furthest_snoc_same {states : List JobState} {s : JobState} (h : s = .available ∨ s = .leased ∨ s = furthest states) :
    furthest (states ++ [s]) = furthest states := by
  rcases h with rfl | rfl | rfl
  · simp [furthest]
  · simp [furthest]
  · unfold furthest
    split <;> split <;> simp_all

theorem furthest_snoc_next {states : List JobState} {s : JobState} (h : before s = some (furthest states)) :
    furthest (states ++ [s]) = s := by
  unfold furthest at h ⊢
  cases s with
  | prepared =>
    have hready : .ready ∉ states := by
      intro hmem
      rw [if_pos hmem] at h
      cases h
    simp [hready]
  | ready => simp
  | available | leased | running => cases h

theorem resume_cases (job : Job) : job.state = .available ∨ job.state = .leased ∨ job.state = job.resume := by
  cases hs : job.state <;> simp [Job.resume, hs]

theorem resume_of_furthest {job : Job} {states : List JobState} (h : job.state = furthest states) : job.resume = job.state := by
  rw [Job.resume]
  rcases furthest_cases states with hf | hf | hf <;> rw [h, hf]

/-- A job resumes in the most advanced state that it was in. -/
def Resumes (job : Option Job) (states : List JobState) : Prop :=
  match job with
  | none => states = []
  | some job => job.resume = furthest states

section Runs

variable {enabled : UUID → UUID → Bool} {digest : Bytes → Bytes} {w w' : World}

theorem redeem_state {job : Job} (at' : Timestamp) (h : job.state = .leased) : (job.redeem at').state = job.resume := by
  rw [Job.resume, h]
  rfl

theorem Effect.resumes {reply : Reply} (h : Effect digest w w' reply) {key : JobKey} {states : List JobState}
    (hr : Resumes (w.jobs key) states) : Resumes (w'.jobs key) (states ++ ((w'.jobs key).map (·.state)).toList) := by
  have hsame : w'.jobs key = w.jobs key → Resumes (w'.jobs key) (states ++ ((w'.jobs key).map (·.state)).toList) := by
    intro heq
    rw [heq]
    cases hj : w.jobs key with
    | none =>
      rw [hj] at hr
      exact (List.append_nil _).trans hr
    | some job =>
      rw [hj] at hr
      refine Eq.trans hr (furthest_snoc_same ?_).symm
      rw [← show job.resume = furthest states from hr]
      exact resume_cases job
  cases h with
  | nothing hissued hjobs =>
    rcases hjobs key with heq | ⟨hnone, job, hjob, hfresh⟩
    · exact hsame heq
    · simp only [Job.fresh, decide_eq_true_eq] at hfresh
      rw [hnone] at hr
      rw [hjob, show states = [] from hr]
      simp [Resumes, Job.resume, furthest, hfresh.1, hfresh.2.2.1]
  | claimed old new l hold hepoch hclaims hissued hjobs =>
    by_cases hk : key = l.key
    · subst hk
      rw [hold] at hr
      rw [hjobs, Function.update_self]
      refine Eq.trans (hclaims.resume.trans hr) (furthest_snoc_same ?_).symm
      exact .inr (.inl hclaims.state)
    · exact hsame (by rw [hjobs, Function.update_of_ne hk])
  | redeemed old at' l hold hepoch hstate hunder hissued hjobs =>
    by_cases hk : key = l.key
    · subst hk
      rw [hold] at hr
      rw [hjobs, Function.update_self]
      have hs : (old.redeem at').state = furthest states := (redeem_state at' hstate).trans hr
      exact Eq.trans ((resume_of_furthest hs).trans hs) (furthest_snoc_same (.inr (.inr hs))).symm
    · exact hsame (by rw [hjobs, Function.update_of_ne hk])
  | advanced old new l hold hbefore hnew hissued hjobs =>
    by_cases hk : key = l.key
    · subst hk
      rw [hold] at hr
      rw [hjobs, Function.update_self]
      obtain ⟨-, havailable, hleased⟩ := before_some hbefore
      have hresume : old.resume = old.state := (((resume_cases old).resolve_left havailable).resolve_left hleased).symm
      have hf : before new.state = some (furthest states) := by rw [← show old.resume = furthest states from hr, hresume, hbefore]
      have hs : new.state = furthest (states ++ [new.state]) := (furthest_snoc_next hf).symm
      exact (resume_of_furthest hs).trans hs
    · exact hsame (by rw [hjobs, Function.update_of_ne hk])
  | accepted source page hissued hjobs => exact hsame (by rw [hjobs])

/-- Along a run, every job resumes where it had got to. -/
theorem run_inv {w₀ : World} (hw : w₀.Fresh) (calls : List Call) :
    Inv enabled digest (after (step enabled digest) w₀ calls) ∧
      ∀ key, Resumes ((after (step enabled digest) w₀ calls).jobs key) (visited key (states (step enabled digest) w₀ calls)) := by
  induction calls using List.reverseRecOn with
  | nil =>
    refine ⟨hw.inv, ?_⟩
    intro key
    simp [states, visited, hw.jobs key, Resumes]
  | append_singleton calls c ih =>
    obtain ⟨hinv, hres⟩ := ih
    obtain ⟨he, hinv'⟩ := step_spec hinv c
    rw [after_append]
    refine ⟨hinv', ?_⟩
    intro key
    rw [states_snoc, visited_snoc]
    exact he.resumes (hres key)

/-- No two leases of one job are unexpired at once. -/
theorem Inv.exclusive (h : Inv enabled digest w) {l l' : Lease} (hl : l ∈ w.issued) (hl' : l' ∈ w.issued) (hkey : l.key = l'.key)
    (hopen : w.clock < l.expiresAt) (hopen' : w.clock < l'.expiresAt) : l = l' := by
  have hexpired : ∀ a ∈ w.issued, ∀ b ∈ w.issued, a.key = b.key → a.leaseGeneration < b.leaseGeneration → a.expiresAt ≤ w.clock := by
    intro a ha b hb hab hgen
    calc a.expiresAt ≤ dueAt a.expiresAt a.leaseGeneration := Nat.le_add_right _ _
      _ ≤ b.issuedAt := h.spaced.spaced a ha b hb hab hgen
      _ ≤ w.clock := h.minted b hb
  rcases Nat.lt_trichotomy l.leaseGeneration l'.leaseGeneration with hlt | heq | hgt
  · exact absurd hopen (Nat.not_lt.mpr (hexpired l hl l' hl' hkey hlt))
  · exact h.spaced.unique l hl l' hl' hkey heq
  · exact absurd hopen' (Nat.not_lt.mpr (hexpired l' hl' l hl hkey.symm hgt))

end Runs

/-- What a claim may do: `old` and `new` are the job's row before it and after. -/
structure LeaseClaimed (w : World) (old new : Job) (l : Lease) : Prop where
  generation : new.leaseGeneration = old.leaseGeneration + 1
  leaseGeneration : l.leaseGeneration = new.leaseGeneration
  bounded : new.leaseGeneration ≤ MAX_GENERATION
  epoch : currentEpoch (w.pages l.source) old = true
  minted : l.issuedAt ≤ w.clock
  /-- A lease is reclaimed after it has expired and its backoff is over. -/
  backoff : old.leaseGeneration ≠ 0 →
    ∃ columns, old.lease = some columns ∧ dueAt columns.expiresAt old.leaseGeneration ≤ l.issuedAt

/-- What a redemption may do, of a job that was in `states` before. -/
structure LeaseRedeemed (w : World) (old new : Job) (l : Lease) (states : List JobState) : Prop where
  generation : l.leaseGeneration = old.leaseGeneration ∧ new.leaseGeneration = old.leaseGeneration
  newest : ∀ l' ∈ w.issued, l'.key = l.key → l'.leaseGeneration ≤ l.leaseGeneration
  epoch : currentEpoch (w.pages l.source) old = true
  resumed : new.state = furthest states

/-- Every step of every run of any number of schedulers, workers and scans. -/
theorem leases_exclusive_and_resumed (enabled : UUID → UUID → Bool) (digest : Bytes → Bytes) {w₀ : World} (hw : w₀.Fresh)
    (calls : List Call) (c : Call) :
    let w := after (step enabled digest) w₀ calls
    let w' := (step enabled digest w c).1
    let reply := (step enabled digest w c).2
    (∀ l, reply = .claimed l → ∃ old new, w.jobs l.key = some old ∧ w'.jobs l.key = some new ∧ LeaseClaimed w old new l) ∧
      (∀ key old, w.jobs key = some old → (∀ l, reply = .claimed l → l.key ≠ key) →
        ∃ new, w'.jobs key = some new ∧ new.leaseGeneration = old.leaseGeneration ∧ new.lease = old.lease) ∧
      (∀ l ∈ w'.issued, ∀ l' ∈ w'.issued, l.key = l'.key → w'.clock < l.expiresAt → w'.clock < l'.expiresAt → l = l') ∧
      ∀ l s, reply = .redeemed l s → ∃ old new, w.jobs l.key = some old ∧ w'.jobs l.key = some new ∧ new.state = s ∧
        LeaseRedeemed w old new l (visited l.key (states (step enabled digest) w₀ calls)) := by
  intro w w' reply
  have ⟨(hinv : Inv enabled digest w), hres⟩ := run_inv hw calls
  obtain ⟨he, hinv'⟩ := step_spec hinv c
  refine ⟨?_, ?_, ?_, ?_⟩
  · intro l hl
    have hclaim : Effect digest w w' (.claimed l) := hl ▸ he
    obtain ⟨old, new, hold, hnew, hepoch, hc, -⟩ := hclaim.claims
    exact ⟨old, new, hold, hnew, hc.generation, hc.leaseGeneration, hc.bounded, hepoch, hc.minted, hc.due⟩
  · intro key old hold hno
    obtain ⟨new, hnew, -, hkept⟩ := he.evolves hold
    exact ⟨new, hnew, hkept hno⟩
  · exact fun l hl l' hl' hkey hopen hopen' => hinv'.exclusive hl hl' hkey hopen hopen'
  · intro l s hl
    have hredeem : Effect digest w w' (.redeemed l s) := hl ▸ he
    cases hredeem with
    | redeemed old at' l hold hepoch hstate hunder hissued hjobs =>
      have hr : Resumes (some old) (visited l.key (states (step enabled digest) w₀ calls)) := hold ▸ hres l.key
      refine ⟨old, old.redeem at', hold, ?_, rfl, ⟨?_, rfl⟩, ?_, hepoch, (redeem_state at' hstate).trans hr⟩
      · rw [hjobs, Function.update_self]
      · exact (under_iff.mp hunder).2.2.1.symm
      · intro l' hl' hkey
        obtain ⟨job, hjob, hissuedFor⟩ := hinv.issued l' hl'
        rw [hkey] at hjob
        obtain rfl : job = old := Option.some.inj (hjob.symm.trans hold)
        rw [← (under_iff.mp hunder).2.2.1]
        rcases hissuedFor.current with hlt | ⟨heq, -⟩
        · exact hlt.le
        · exact heq.le

/-! ## An import that is reclaimed -/

namespace DispatchInstance

def org : UUID := .ofNat 1

def source : UUID := .ofNat 2

def version : UUID := .ofNat 3

def key : JobKey := (org, .ofNat 4)

def authority : Authority where
  sources := fun _ => some ⟨true, true, version, [⟨version, "file-capabilities-v4", "vault"⟩]⟩
  memberships := fun _ => [⟨.ofNat 6, 1, true, 0, none⟩]
  locked := fun _ => false

def job : Job where
  sourceId := source
  sourceVersionId := version
  servicePrincipalId := .ofNat 5
  audienceMembershipId := .ofNat 6
  audienceMembershipVersion := 1
  changePageRef := some "page"
  changeKind := .upsert
  changeOrdinal := 0
  scheduled := some (0, 1)
  state := .available
  leaseGeneration := 0
  dispatchClaimed := false
  recoveryFromState := none
  lease := none
  leaseRedeemedAt := none

def world : World where
  clock := 1500000
  authority := authority
  jobs := fun _ => none
  queue := []
  pages := fun _ => []
  sessions := fun _ => none
  rowLocks := fun _ => none
  progressLocks := fun _ => none
  issued := []

def claimCall (nonce : UInt8) : ClaimCall := ⟨.scheduler, 1, List.replicate 32 nonce, ["vault"]⟩

def lease (generation : Nat) (issuedAt : Timestamp) : Lease :=
  ⟨org, .ofNat 4, source, .ofNat 5, generation, 1, List.replicate 32 (.ofNat generation), issuedAt, issuedAt + TTL_SECONDS * MICROS⟩

/-- A page is accepted and an import of it scheduled; the first lease is redeemed and its worker
    prepares the document and is lost. The second lease expires, and the third is redeemed. -/
def calls : List Call :=
  [.accept 0 (org, source) ⟨"page", version, .ofNat 7, 0⟩, .next 0, .next 0, .commit 0, .schedule key job,
    .claim 0 (claimCall 1), .next 0, .next 0, .next 0, .next 0, .commit 0,
    .redeem 0 (lease 1 1000000), .next 0, .next 0, .next 0, .next 0, .commit 0,
    .progress 0 (lease 1 1000000) .prepared, .next 0, .commit 0,
    .advanceClock 330000000, .claim 0 (claimCall 2), .next 0, .next 0, .next 0, .commit 0,
    .advanceClock 360000000, .claim 0 (claimCall 3), .next 0, .next 0, .next 0, .commit 0,
    .redeem 0 (lease 3 691000000), .next 0, .next 0, .next 0, .next 0]

/-- The lease of the third claim is redeemed, in the state that the first one's worker reached. -/
theorem reclaimed_twice_resumes : (step (fun _ _ => true) id (after (step (fun _ _ => true) id) world calls) (.commit 0)).2 =
    .redeemed (lease 3 691000000) .prepared ∧
    ∃ old new, LeaseRedeemed (after (step (fun _ _ => true) id) world calls) old new (lease 3 691000000)
      (visited key (states (step (fun _ _ => true) id) world calls)) := by
  have hreply : (step (fun _ _ => true) id (after (step (fun _ _ => true) id) world calls) (.commit 0)).2 =
      .redeemed (lease 3 691000000) .prepared := by
    decide +kernel
  have hfresh : world.Fresh := ⟨fun _ => rfl, fun _ => rfl, fun _ => rfl, fun _ => rfl, rfl⟩
  obtain ⟨-, -, -, hredeemed⟩ := leases_exclusive_and_resumed (fun _ _ => true) id hfresh calls (.commit 0)
  obtain ⟨old, new, -, -, -, h⟩ := hredeemed (lease 3 691000000) .prepared hreply
  exact ⟨hreply, old, new, h⟩

end DispatchInstance

end ContextEngine.Scheduler
