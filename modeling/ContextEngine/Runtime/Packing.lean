/-
  ContextEngine.Runtime.Packing — the three computations that bound a Package by its budget:
  the selector packs bodies by their octets, the Kernel adds the octets of the blocks up
  again, and the assembly of a v1 Package is charged its Unicode scalars.

  A body may have a lone surrogate, which the digests write and the two sums of octets do not:
  the selector raises on any such body of its tuple, whether it would be kept or skipped
  (`PackingInstance.surrogate_not_packed`).

  Proved: `packing_within_budget`: without such a body, and only then, the packing is
  returned, feasible, in order and maximal; the Kernel's check never fails on what the
  selector selected, and the charge is at most the octets.
-/

import ContextEngine.Machine.Packing
import ContextEngine.Runtime.Inheritance
import ContextEngine.Runtime.RankingProofs
import ContextEngine.Runtime.ResolveProofs

namespace ContextEngine.Runtime

open ContextEngine.Machine ContextEngine.Python Checks Budget

/-! ## Octets -/

/-- What an item takes of the budget. -/
def AuthorizedRerankItem.tokens {F : Type} (i : AuthorizedRerankItem F) : Nat := i.projection.projectedBody.utf8.length

/-- The octets of a content's blocks. -/
def contentTokens (content : PackageContent) : Nat := (content.blocks.map fun b => b.body.utf8.length).sum

theorem bodyTokens_ok {body : Str} (h : body.any Str.isSurrogate = false) : bodyTokens body = .ok body.utf8.length := by
  simp [bodyTokens, Str.utf8Strict, h]

theorem bodyTokens_error {body : Str} (h : body.any Str.isSurrogate = true) : bodyTokens body = .error surrogatesNotAllowed := by
  simp [bodyTokens, Str.utf8Strict, h]

/-- The strict octets of the blocks are their octets, or there is a surrogate among them. -/
theorem blockTokens_cases (content : PackageContent) :
    blockTokens content.blocks = .error surrogatesNotAllowed ∨ blockTokens content.blocks = .ok (contentTokens content) := by
  have hcounts : ∀ blocks : List PackageBlock, blocks.mapM (fun b => bodyTokens b.body) = .error surrogatesNotAllowed ∨
      blocks.mapM (fun b => bodyTokens b.body) = .ok (blocks.map fun b => b.body.utf8.length) := by
    intro blocks
    induction blocks with
    | nil => exact .inr rfl
    | cons b bs ih =>
      rw [List.mapM_cons]
      cases hb : b.body.any Str.isSurrogate with
      | true =>
        rw [bodyTokens_error hb]
        exact .inl rfl
      | false =>
        rw [bodyTokens_ok hb]
        rcases ih with ih | ih
        · exact .inl (by rw [ih]; rfl)
        · exact .inr (by rw [ih]; rfl)
  rcases hcounts content.blocks with h | h
  · exact .inl (by rw [blockTokens, h]; rfl)
  · exact .inr (by rw [blockTokens, h]; rfl)

/-! ## Packing -/

section Selection

variable {F : Type}

/-- No body of the tuple has a lone surrogate. -/
def Encodable (joined : List (AuthorizedRerankItem F)) : Prop :=
  ∀ i ∈ joined, i.projection.projectedBody.any Str.isSurrogate = false

theorem packToBudget_eq {joined : List (AuthorizedRerankItem F)} (h : Encodable joined) (maxTokens consumed : Nat) :
    packToBudget maxTokens consumed joined = .ok (pack AuthorizedRerankItem.tokens maxTokens consumed joined) := by
  induction joined generalizing consumed with
  | nil => rfl
  | cons i is ih =>
    have hi : bodyTokens i.projection.projectedBody = .ok i.tokens := bodyTokens_ok (h i List.mem_cons_self)
    have hrest : Encodable is := fun j hj => h j (List.mem_cons_of_mem _ hj)
    rw [packToBudget, hi, pack]
    simp only [bind, Except.bind, ih hrest]
    split <;> rfl

/-- Every body is encoded, those that are skipped too. -/
theorem encodable_of_packToBudget {maxTokens consumed : Nat} {joined selected : List (AuthorizedRerankItem F)}
    (h : packToBudget maxTokens consumed joined = .ok selected) : Encodable joined := by
  induction joined generalizing consumed selected with
  | nil => exact fun i hi => nomatch hi
  | cons i is ih =>
    obtain ⟨tokens, htokens, h⟩ := bind_ok h
    have hi : i.projection.projectedBody.any Str.isSurrogate = false := by
      by_contra hany
      rw [Bool.not_eq_false] at hany
      rw [bodyTokens_error hany] at htokens
      cases htokens
    have hrest : Encodable is := by
      split at h
      · exact ih h
      · obtain ⟨rest, hpacked, -⟩ := bind_ok h
        exact ih hpacked
    exact List.forall_mem_cons.mpr ⟨hi, hrest⟩

/-- The selection is feasible, in order, and maximal. -/
structure Packed (budget : PackageBudget) (joined selected : List (AuthorizedRerankItem F)) : Prop where
  feasible : (selected.map (·.tokens)).sum ≤ budget.maxTokens
  sublist : selected.Sublist joined
  maximal : ∃ skipped, Split selected skipped joined ∧
    ∀ i ∈ skipped, budget.maxTokens < (selected.map (·.tokens)).sum + i.tokens

theorem pack_packed (joined : List (AuthorizedRerankItem F)) (budget : PackageBudget) :
    Packed budget joined (pack AuthorizedRerankItem.tokens budget.maxTokens 0 joined) := by
  have hsplit : Split (pack AuthorizedRerankItem.tokens budget.maxTokens 0 joined)
      (passed AuthorizedRerankItem.tokens budget.maxTokens 0 joined) joined := pack_split 0 joined
  refine ⟨?_, hsplit.sublist, _, hsplit, fun i hi => ?_⟩
  · have hfits : 0 + totalWeight AuthorizedRerankItem.tokens (pack AuthorizedRerankItem.tokens budget.maxTokens 0 joined) ≤
        budget.maxTokens := pack_fits (Nat.zero_le budget.maxTokens) joined
    rwa [Nat.zero_add] at hfits
  · have hmax := pack_maximal hi
    rwa [Nat.zero_add] at hmax

/-- The selector returns a packing, and nothing else. -/
theorem selectAuthorizedRanking_packed {joined selected : List (AuthorizedRerankItem F)} {budget : PackageBudget}
    (h : selectAuthorizedRanking joined budget = .ok selected) : Packed budget joined selected := by
  rw [selectAuthorizedRanking] at h
  rw [packToBudget_eq (encodable_of_packToBudget h)] at h
  obtain rfl := Except.ok.inj h
  exact pack_packed joined budget

theorem selectAuthorizedRanking_iff (joined : List (AuthorizedRerankItem F)) (budget : PackageBudget) :
    (∃ selected, selectAuthorizedRanking joined budget = .ok selected ∧ Packed budget joined selected) ↔ Encodable joined := by
  constructor
  · rintro ⟨selected, hselected, -⟩
    exact encodable_of_packToBudget hselected
  · intro h
    exact ⟨_, packToBudget_eq h budget.maxTokens 0, pack_packed joined budget⟩

/-! ## The content of a selection -/

theorem contentOf_body {lib : Stdlib} {p : AuthorizedProjection} {x : Evidence × PackageBlock} (h : contentOf lib p = .ok x) :
    x.2.body = p.projectedBody := by
  obtain ⟨e, -, h⟩ := bind_ok h
  obtain ⟨b, hb, h⟩ := bind_ok h
  obtain rfl := Except.ok.inj h
  obtain ⟨_, -, hb⟩ := bind_ok hb
  obtain ⟨body, hbody, hb⟩ := bind_ok hb
  obtain rfl := requireNonblankBody_ok hbody
  obtain rfl := Except.ok.inj hb
  rfl

/-- The blocks have the bodies of the projections. -/
theorem constructPackageContent_bodies {lib : Stdlib} {projections : List AuthorizedProjection} {content : PackageContent}
    (h : constructPackageContent lib projections = .ok content) :
    content.blocks.map (·.body) = projections.map (·.projectedBody) := by
  obtain ⟨_, -, h⟩ := bind_ok h
  have hitems : ∃ items, projections.mapM (contentOf lib) = .ok items ∧ content.blocks = items.map (·.2) := by
    cases projections with
    | nil =>
      obtain ⟨items, hitems, h⟩ := bind_ok h
      obtain ⟨_, -, h⟩ := bind_ok h
      obtain rfl := Except.ok.inj h
      exact ⟨items, hitems, rfl⟩
    | cons p ps =>
      obtain ⟨_, -, h⟩ := bind_ok h
      obtain ⟨_, -, h⟩ := bind_ok h
      obtain ⟨items, hitems, h⟩ := bind_ok h
      obtain ⟨_, -, h⟩ := bind_ok h
      obtain rfl := Except.ok.inj h
      exact ⟨items, hitems, rfl⟩
  obtain ⟨items, hitems, hblocks⟩ := hitems
  rw [hblocks, List.map_map]
  exact mapM_map (fun _ _ hx => contentOf_body hx) hitems

theorem selectForDelivery_fits [LinearOrder F] {fl : Floats F} {lib : Stdlib} {d : AuthorizationDecision}
    {rankEvidence : List (CandidateRankEvidence F)} {rankerWeights : Option (RankerWeights F fl)} {content : PackageContent}
    (h : selectForDelivery fl lib d rankEvidence rankerWeights = .ok content) :
    contentTokens content ≤ d.effectiveBudget.maxTokens := by
  obtain ⟨joined, -, h⟩ := bind_ok h
  obtain ⟨selected, hselected, h⟩ := bind_ok h
  have hbodies := constructPackageContent_bodies h
  have htokens : contentTokens content = (selected.map (·.tokens)).sum := by
    have hsum := congrArg (fun bodies : List Str => (bodies.map fun body => body.utf8.length).sum) hbodies
    simp only [List.map_map, Function.comp_def] at hsum
    exact hsum
  rw [htokens]
  exact (selectAuthorizedRanking_packed hselected).feasible

end Selection

/-! ## What the selection raises -/

/-- The Kernel's check of a selection fails. -/
def exceedsBudget : Raised := .valueError "sealed selection exceeds PackageBudget"

/-- The code does not raise that. -/
def Spares {α : Type} (x : Except Raised α) : Prop := ∀ e, x = .error e → e ≠ exceedsBudget

namespace Spares

variable {α β : Type}

theorem ok (a : α) : Spares (.ok a) := fun _ h => nomatch h

theorem raise {message : String} (h : message ≠ "sealed selection exceeds PackageBudget") :
    Spares (.error (.valueError message) : Except Raised α) := by
  intro e he
  obtain rfl := Except.error.inj he
  exact fun heq => h (Raised.valueError.inj heq)

theorem ensure {ok : Bool} {message : String} (h : message ≠ "sealed selection exceeds PackageBudget") :
    Spares (Checks.ensure ok message) := by
  cases ok with
  | true => exact .ok ()
  | false => exact .raise h

theorem bind {x : Except Raised α} {f : α → Except Raised β} (hx : Spares x) (hf : ∀ a, Spares (f a)) : Spares (x >>= f) := by
  cases x with
  | error e =>
    intro e' h
    obtain rfl := Except.error.inj h
    exact hx e rfl
  | ok a => exact hf a

theorem mapM {f : α → Except Raised β} (h : ∀ a, Spares (f a)) (as : List α) : Spares (as.mapM f) := by
  induction as with
  | nil => exact .ok []
  | cons a as ih =>
    rw [List.mapM_cons]
    exact .bind (h a) fun b => .bind ih fun bs => .ok (b :: bs)

theorem forM {f : α → Except Raised PUnit} (h : ∀ a, Spares (f a)) (as : List α) : Spares (as.forM f) := by
  induction as with
  | nil => exact .ok ()
  | cons a as ih => exact .bind (h a) fun _ => ih

theorem requireNonblankBody (body : Str) : Spares (Runtime.requireNonblankBody body) :=
  .bind (.ensure (by decide)) fun _ => .ok body

theorem validateProjectedFieldRefs (refs : List String) : Spares (Runtime.validateProjectedFieldRefs refs) :=
  .bind (.ensure (by decide)) fun _ => .bind (.ensure (by decide)) fun _ => .bind (.ensure (by decide)) fun _ =>
    .bind (.ensure (by decide)) fun _ => .ok refs

theorem requireEvidenceRef (ref : String) : Spares (Runtime.requireEvidenceRef ref) :=
  .bind (.ensure (by decide)) fun _ => .ensure (by decide)

theorem bodyTokens (body : Str) : Spares (Runtime.bodyTokens body) := by
  cases h : body.any Str.isSurrogate with
  | true =>
    rw [bodyTokens_error h]
    exact .raise (by decide)
  | false =>
    rw [bodyTokens_ok h]
    exact .ok _

section Selection

variable (lib : Stdlib) {F : Type}

theorem requireActiveAuthorizedProjection (p : AuthorizedProjection) : Spares (Runtime.requireActiveAuthorizedProjection lib p) := by
  refine .bind (.ensure (by decide)) fun _ => ?_
  split
  · exact .ensure (by decide)
  · exact .raise (by decide)

theorem contentOf (p : AuthorizedProjection) : Spares (Runtime.contentOf lib p) := by
  refine .bind ?_ fun e => .bind ?_ fun b => .ok (e, b)
  · exact .bind (.requireEvidenceRef _) fun _ => .bind (.validateProjectedFieldRefs _) fun _ => .ok _
  · exact .bind (.requireEvidenceRef _) fun _ => .bind (.requireNonblankBody _) fun _ => .ok _

theorem validatePackageContent (blocks : List PackageBlock) (evidence : List Evidence) :
    Spares (Runtime.validatePackageContent lib blocks evidence) := by
  refine .bind (.forM (fun b => ?_) blocks) fun _ => .bind (.forM (fun e => ?_) evidence) fun _ => ?_
  · exact .bind (.requireEvidenceRef _) fun _ => .bind (.requireNonblankBody _) fun _ => .ensure (by decide)
  · exact .ensure (by decide)
  · exact .bind (.ensure (by decide)) fun _ => .bind (.ensure (by decide)) fun _ => .bind (.ensure (by decide)) fun _ =>
      .bind (.ensure (by decide)) fun _ => .bind (.ensure (by decide)) fun _ => .ensure (by decide)

theorem constructPackageContent (projections : List AuthorizedProjection) :
    Spares (Runtime.constructPackageContent lib projections) := by
  have hrest : Spares (projections.mapM (Runtime.contentOf lib) >>= fun items =>
      Runtime.validatePackageContent lib (items.map (·.2)) (items.map (·.1)) >>= fun _ =>
      .ok (⟨items.map (·.2), items.map (·.1)⟩ : PackageContent)) :=
    .bind (.mapM (.contentOf lib) projections) fun items => .bind (.validatePackageContent lib _ _) fun _ => .ok _
  refine .bind (.forM (.requireActiveAuthorizedProjection lib) projections) fun _ => ?_
  cases projections with
  | nil => exact hrest
  | cons p ps => exact .bind (.ensure (by decide)) fun _ => .bind (.ensure (by decide)) fun _ => hrest

theorem packToBudget (maxTokens consumed : Nat) (joined : List (AuthorizedRerankItem F)) :
    Spares (Runtime.packToBudget maxTokens consumed joined) := by
  induction joined generalizing consumed with
  | nil => exact .ok []
  | cons i is ih =>
    refine .bind (.bodyTokens _) fun tokens => ?_
    split
    · exact ih consumed
    · exact .bind (ih (consumed + tokens)) fun rest => .ok (i :: rest)

variable [LinearOrder F] {fl : Floats F}

theorem joinAuthorizedRanking (projections : List AuthorizedProjection) (rankEvidence : List (CandidateRankEvidence F))
    (rankerWeights : Option (RankerWeights F fl)) :
    Spares (Runtime.joinAuthorizedRanking fl lib projections rankEvidence rankerWeights) := by
  refine .bind (.ensure (by decide)) fun _ => .bind ?_ fun weights => .bind (.mapM (fun p => ?_) projections) fun joined => .ok _
  · unfold authorizedRankerWeights
    cases rankerWeights with
    | none => exact .ok _
    | some w => exact .bind (.ensure (by decide)) fun _ => .bind (.ensure (by decide)) fun _ => .ok _
  · refine .bind ?_ fun item => .ok _
    exact .bind (.requireActiveAuthorizedProjection lib p) fun _ => .bind (.ensure (by decide)) fun _ => .ok _

theorem selectForDelivery (d : AuthorizationDecision) (rankEvidence : List (CandidateRankEvidence F))
    (rankerWeights : Option (RankerWeights F fl)) : Spares (Runtime.selectForDelivery fl lib d rankEvidence rankerWeights) :=
  .bind (.joinAuthorizedRanking lib _ rankEvidence rankerWeights) fun joined =>
    .bind (.packToBudget d.effectiveBudget.maxTokens 0 joined) fun _ => .constructPackageContent lib _

end Selection

end Spares

/-! ## Finalization -/

section Finalization

variable {F : Type} [LinearOrder F] {fl : Floats F} {ω : Type} (rt : SealedRuntime F fl ω) (ss : Sessions ω)
  (inv : AuthenticatedInvocation)

theorem ensure_raises {ok : Bool} {message : String} {e : Raised} (h : ensure ok message = .error e) : e = .valueError message := by
  cases ok <;> cases h
  rfl

theorem isCurrent_raises (s : PolicyEpochSession ω) (v : PolicyEpochVerification) :
    Raises (isCurrent s v) (· ≠ exceedsBudget) := by
  have hepoch : ∀ (value : Option Int) (e : Raised), requirePolicyEpoch value = .error e → e ≠ exceedsBudget := by
    rintro value e he rfl
    unfold requirePolicyEpoch at he
    split at he
    · split at he <;> cases he
    · cases he
  unfold isCurrent
  refine .bind (.check ?_) fun _ => .bind (.reraised _ ?_) fun observed => .bind (.check (hepoch observed)) fun _ =>
    .bind (.modify _) fun _ => .pure _
  · rintro e he rfl
    unfold requireActivePolicyEpochVerification at he
    cases hv : requirePolicyEpoch (some v.policyEpoch) with
    | error e =>
      rw [hv] at he
      exact hepoch _ _ hv (Except.error.inj he)
    | ok n =>
      rw [hv] at he
      simp only [bind, Except.bind] at he
      split at he <;> cases he
  · intro e
    unfold epochFailure
    split
    · exact Raised.noConfusion
    · split
      · exact Raised.noConfusion
      · exact Raised.noConfusion
    · exact Raised.noConfusion
    · exact Raised.noConfusion
    · rename_i hno
      exact fun heq => hno _ heq

/-- The Kernel's check passes on what fits, and nothing after it says so. -/
theorem finalizeForDelivery_raises {d : AuthorizationDecision} {content : PackageContent}
    (h : contentTokens content ≤ d.effectiveBudget.maxTokens) :
    Raises (finalizeForDelivery rt ss inv d content) (· ≠ exceedsBudget) := by
  unfold finalizeForDelivery
  refine .check_bind ?_ fun tokens htokens => .bind (.check ?_) fun _ => .bind (.check ?_) fun _ => .bind (.check ?_) fun _ => ?_
  · intro e he
    rcases blockTokens_cases content with hblocks | hblocks
    · obtain rfl := Except.error.inj (hblocks.symm.trans he)
      simp [surrogatesNotAllowed, exceedsBudget]
    · nomatch hblocks.symm.trans he
  · rcases blockTokens_cases content with hblocks | hblocks
    · nomatch hblocks.symm.trans htokens
    · obtain rfl := Except.ok.inj (hblocks.symm.trans htokens)
      simp [h]
  · intro e he
    rw [ensure_raises he]
    simp [exceedsBudget]
  · intro e he
    rw [ensure_raises he]
    simp [exceedsBudget]
  · dsimp only
    split
    · refine .bind (isCurrent_raises _ _) fun b => ?_
      cases b
      · exact .pure _
      · exact .pure _
    · exact .pure _

end Finalization

/-! ## Assembly -/

/-- A v1 meter counts the characters of scalar text. -/
theorem countText_ok {m : PackageBudgetMeter} (h : m.tokenizer.isSome = true) {value : Str} {n : Nat}
    (hcount : m.countText value = .ok n) : n = value.length := by
  obtain ⟨t, ht⟩ := Option.isSome_iff_exists.mp h
  simp only [PackageBudgetMeter.countText, ht] at hcount
  split at hcount
  · cases hcount
  · exact (Except.ok.inj hcount).symm

theorem length_le_utf8 (s : Str) : s.length ≤ s.utf8.length := by
  rw [Str.utf8, List.length_flatMap]
  calc s.length = (s.map fun _ => 1).sum := by simp
    _ ≤ (s.map fun c => (Str.utf8Char c).length).sum :=
      List.sum_le_sum fun c _ => List.length_pos_iff.mpr (Str.utf8Char_ne_nil c)

/-- A v1 Package is charged the characters of its blocks. -/
theorem count_blocks {m : PackageBudgetMeter} (h : m.tokenizer.isSome = true) {blocks : List PackageBlock} {counts : List Nat}
    (hcounts : blocks.mapM (fun b => m.countText b.body) = .ok counts) : counts = blocks.map (·.body.length) := by
  have hmap : counts.map id = blocks.map (·.body.length) := mapM_map (fun _ _ hn => countText_ok h hn) hcounts
  rwa [List.map_id] at hmap

/-- The assembly adds to the meter what it counted, and nothing else. -/
theorem chargeAssembly_ok {meter meter' : Heap} {content : PackageContent} (h : chargeAssembly meter content = .ok meter') :
    ∃ counts, content.blocks.mapM (fun b => (meter.meters 0).countText b.body) = .ok counts ∧
      (meter'.meters 0).usage = .sum (meter.meters 0).usage ⟨counts.sum, 0, 0, 0⟩ := by
  obtain ⟨counts, hcounts, h⟩ := bind_ok h
  refine ⟨counts, hcounts, ?_⟩
  dsimp only at h
  split at h
  · rename_i hzero
    obtain rfl := Except.ok.inj h
    rw [hzero]
    exact (BudgetUsage.sum_empty _).symm
  · split at h
    · cases h
    · cases h
    · rename_i r mid hreserve
      split at h
      · cases h
      · rename_i after hcommit
        obtain rfl := Except.ok.inj h
        rcases commit_cases hcommit with ⟨⟨e, he⟩, -⟩ | ⟨_, _, hr, hu, -, hsettled⟩
        · cases he
        · obtain rfl := Option.some.inj hu
          obtain ⟨_, reserved, -, -, -, -, -, rfl⟩ := hsettled
          rcases reserve_cases hreserve with ⟨⟨e, he⟩, -⟩ | ⟨_, _, -, -, rfl⟩
          · cases he
          · simp only [Heap.deactivate_meters, Heap.setMeter_same]

/-- A call keeps the tokenizer that a meter is bound to. -/
theorem exec_tokenizer (h : Heap) (call : Call) : ((exec h call).2.meters 0).tokenizer = (h.meters 0).tokenizer := by
  have hset : ∀ (h : Heap) (self : Nat) (m : PackageBudgetMeter), m.tokenizer = (h.meters self).tokenizer →
      ((h.setMeter self m).meters 0).tokenizer = (h.meters 0).tokenizer := by
    intro h self m hm
    by_cases hself : 0 = self
    · subst hself
      rw [Heap.setMeter_same, hm]
    · rw [Heap.setMeter_ne _ _ hself]
  have hsettled : ∀ {h h' : Heap} {self r : Nat} {spent : BudgetUsage}, Settled h h' self r spent →
      (h'.meters 0).tokenizer = (h.meters 0).tokenizer := by
    rintro h h' self r spent ⟨_, reserved, -, -, -, -, -, rfl⟩
    rw [Heap.deactivate_meters]
    exact hset h self _ rfl
  cases call with
  | reserve self maximum =>
    rcases hr : reserve h self maximum with ⟨res, h'⟩
    have hexec : (exec h (.reserve self maximum)).2 = h' := by
      simp only [exec, hr]
      cases res <;> rfl
    rw [hexec]
    rcases reserve_cases hr with ⟨-, rfl⟩ | ⟨_, _, -, -, rfl⟩
    · rfl
    · exact hset h self _ rfl
  | commit self reservation actual =>
    rcases commit_cases (rfl : commit h self reservation actual = (_, _)) with ⟨-, heq⟩ | ⟨_, _, -, -, -, h'⟩
    · exact congrArg (fun h : Heap => (h.meters 0).tokenizer) heq
    · exact hsettled h'
  | cancel self reservation =>
    rcases cancel_cases (rfl : cancel h self reservation = (_, _)) with ⟨-, heq⟩ | ⟨_, -, -, h'⟩
    · exact congrArg (fun h : Heap => (h.meters 0).tokenizer) heq
    · exact hsettled h'

theorem final_tokenizer (h : Heap) (calls : List Call) : ((final h calls).meters 0).tokenizer = (h.meters 0).tokenizer := by
  induction calls generalizing h with
  | nil => rfl
  | cons call calls ih => rw [final, ih, exec_tokenizer]

/-- The meter of a v1 Release is bound to its tokenizer. -/
theorem resolveBudgetMeter_v1 {F : Type} [LinearOrder F] {fl : Floats F} {ω : Type} {rt : SealedRuntime F fl ω}
    {budget : PackageBudget} {release : ActiveRuntimeRelease} {meter : Heap} (hv1 : release.packageSchemaRef = PACKAGE_SCHEMA_REF_V1)
    (h : resolveBudgetMeter rt budget release = .ok meter) : (meter.meters 0).tokenizer.isSome = true := by
  unfold resolveBudgetMeter at h
  rw [if_pos hv1] at h
  split at h
  · obtain ⟨tokenizer, htokenizer, h⟩ := bind_ok h
    obtain rfl := Except.ok.inj htokenizer
    obtain ⟨m, hm, h⟩ := bind_ok h
    obtain rfl := Except.ok.inj h
    obtain ⟨rfl, -⟩ := construct_ok hm
    rfl
  · cases h

/-! ## The three bounds -/

/-- The selector, and the Kernel's check of what it selects. -/
def selectAndFinalize {F : Type} [LinearOrder F] {fl : Floats F} {ω : Type} (rt : SealedRuntime F fl ω) (ss : Sessions ω)
    (inv : AuthenticatedInvocation) (d : AuthorizationDecision) (rankEvidence : List (CandidateRankEvidence F))
    (rankerWeights : Option (RankerWeights F fl)) : RunM ω FinalizedAuthorizationResult := do
  let content ← selectForDelivery fl rt.libs.stdlib d rankEvidence rankerWeights
  finalizeForDelivery rt ss inv d content

/-- The selector returns a packing of a tuple, feasible, in order and maximal, exactly if no
    body of the tuple has a lone surrogate. What it selects for a decision passes the Kernel's
    check of it, and the assembly of a v1 Package from it is charged no more than its octets,
    whatever was charged to its meter before. -/
theorem packing_within_budget {F : Type} [LinearOrder F] {fl : Floats F} {ω : Type} (rt : SealedRuntime F fl ω)
    (ss : Sessions ω) (inv : AuthenticatedInvocation) :
    (∀ (joined : List (AuthorizedRerankItem F)) (budget : PackageBudget),
      (∃ selected, selectAuthorizedRanking joined budget = .ok selected ∧ Packed budget joined selected) ↔ Encodable joined) ∧
    (∀ (d : AuthorizationDecision) (rankEvidence : List (CandidateRankEvidence F)) (rankerWeights : Option (RankerWeights F fl)),
      Raises (selectAndFinalize rt ss inv d rankEvidence rankerWeights) (· ≠ exceedsBudget) ∧
      ∀ content, selectForDelivery fl rt.libs.stdlib d rankEvidence rankerWeights = .ok content →
        contentTokens content ≤ d.effectiveBudget.maxTokens) ∧
    (∀ (release : ActiveRuntimeRelease) (budget : PackageBudget) (meter meter' : Heap) (calls : List Call) (content : PackageContent),
      release.packageSchemaRef = PACKAGE_SCHEMA_REF_V1 → resolveBudgetMeter rt budget release = .ok meter →
      chargeAssembly (final meter calls) content = .ok meter' → ∃ scalars,
        (meter'.meters 0).usage = .sum ((final meter calls).meters 0).usage ⟨scalars, 0, 0, 0⟩ ∧
          scalars = (content.blocks.map (·.body.length)).sum ∧ scalars ≤ contentTokens content) := by
  refine ⟨selectAuthorizedRanking_iff, fun d rankEvidence rankerWeights => ⟨?_, fun content h => selectForDelivery_fits h⟩, ?_⟩
  · have hspares : Spares (selectForDelivery fl rt.libs.stdlib d rankEvidence rankerWeights) := .selectForDelivery _ _ _ _
    exact .check_bind hspares fun content h => finalizeForDelivery_raises rt ss inv (selectForDelivery_fits h)
  · intro release budget meter meter' calls content hv1 hmeter hcharge
    have htokenizer : ((final meter calls).meters 0).tokenizer.isSome = true := by
      rw [final_tokenizer]
      exact resolveBudgetMeter_v1 hv1 hmeter
    obtain ⟨counts, hcounts, husage⟩ := chargeAssembly_ok hcharge
    obtain rfl := count_blocks htokenizer hcounts
    exact ⟨_, husage, rfl, List.sum_le_sum fun b _ => length_le_utf8 b.body⟩

namespace PackingInstance

open KernelInstance

/-- One body of ten octets was selected in a budget of ten. -/
def selects : Except Raised AuthorizationDecision → Bool
  | .error _ => false
  | .ok d =>
    match selectForDelivery Floats.rationals cpython d [] none with
    | .error _ => false
    | .ok content => contentTokens content == 10 && d.effectiveBudget.maxTokens == 10

theorem exists_of_selects {r : Except Raised AuthorizationDecision} (h : selects r = true) : ∃ d content,
    selectForDelivery Floats.rationals cpython d [] none = .ok content ∧ contentTokens content = 10 ∧
      d.effectiveBudget.maxTokens = 10 := by
  unfold selects at h
  split at h
  · cases h
  next d =>
  split at h
  · cases h
  next content hcontent =>
  obtain ⟨hten, hbudget⟩ := Bool.and_eq_true_iff.mp h
  exact ⟨d, content, hcontent, beq_iff_eq.mp hten, beq_iff_eq.mp hbudget⟩

theorem ten_octets_delivered : ∃ d content,
    selectForDelivery Floats.rationals cpython d [] none = .ok content ∧ contentTokens content = 10 ∧
      d.effectiveBudget.maxTokens = 10 ∧ contentTokens content ≤ d.effectiveBudget.maxTokens ∧
      Raises (selectAndFinalize CurrentAndEmpty.runtime CurrentAndEmpty.sessions invocation d [] none) (· ≠ exceedsBudget) := by
  have hrun : selects (authorizeAcquire cpython invocation preparation [candidate article first]
      (some (InheritanceInstance.port.session true))) = true := by
    decide +kernel
  obtain ⟨d, content, hcontent, hten, hbudget⟩ := exists_of_selects hrun
  obtain ⟨hraises, hfits⟩ := (packing_within_budget CurrentAndEmpty.runtime CurrentAndEmpty.sessions invocation).2.1 d [] none
  exact ⟨d, content, hcontent, hten, hbudget, hfits content hcontent, hraises⟩

/-! ### A lone surrogate -/

/-- The ref in every field of the lineage. -/
def lineageRef : OpaqueRef := ⟨"lineage-ref", by decide⟩

theorem first_epoch : (1 : Int) ≤ 1 ∧ 1 ≤ MAX_POLICY_EPOCH := by decide

def lineage : EvidenceLineage :=
  ⟨lineageRef, lineageRef, lineageRef, ⟨0⟩, lineageRef, lineageRef, 1, lineageRef, lineageRef, ⟨0⟩, lineageRef, first_epoch⟩

/-- Half of a surrogate pair. -/
def surrogate : Str := [0xd800]

def projection : AuthorizedProjection :=
  ⟨candidate article first, surrogate, ["body"], lineage, ⟨true⟩,
    projectionIntegrityDigest cpython (candidate article first) surrogate ["body"] lineage⟩

/-- The Kernel builds the projection, for its digest is over what `surrogatepass` writes. -/
theorem surrogate_constructed :
    constructAuthorizedProjection cpython ⟨true⟩ (candidate article first) surrogate ["body"] lineage = .ok projection := by
  have hbody : requireNonblankBody surrogate = .ok surrogate := by decide
  have hrefs : validateProjectedFieldRefs ["body"] = .ok ["body"] := by decide +kernel
  simp only [constructAuthorizedProjection, hbody, hrefs]
  rfl

def item : AuthorizedRerankItem ℚ := ⟨projection, none, NEUTRAL_FUSED_RANK⟩

/-- The item is admitted to ranking, and no budget packs it. -/
theorem surrogate_not_packed : authorizedRerankItem cpython projection none = .ok item ∧
    selectAuthorizedRanking [item] preparation.effectiveBudget = .error surrogatesNotAllowed ∧
    ¬∃ selected, selectAuthorizedRanking [item] preparation.effectiveBudget = .ok selected ∧
      Packed preparation.effectiveBudget [item] selected := by
  have hactive := requireActive_of_construct cpython surrogate_constructed
  have hitem : authorizedRerankItem cpython projection none = .ok item := by
    simp only [authorizedRerankItem, hactive]
    rfl
  have htokens : bodyTokens item.projection.projectedBody = .error surrogatesNotAllowed := bodyTokens_error (by decide)
  have hselect : selectAuthorizedRanking [item] preparation.effectiveBudget = .error surrogatesNotAllowed := by
    rw [selectAuthorizedRanking, packToBudget, htokens]
    rfl
  refine ⟨hitem, hselect, ?_⟩
  rintro ⟨selected, hselected, -⟩
  nomatch hselect.symm.trans hselected

end PackingInstance

end ContextEngine.Runtime
