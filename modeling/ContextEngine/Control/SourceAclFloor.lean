/-
  ContextEngine.Control.SourceAclFloor — the rule that a source's access observation narrows
  an article's local policy, in its three forms: the oracle of
  `engine/article_access_policy.py`, the fixation of migration 0042, and the branch of
  `context_control_apply_feishu_acl_observation` as migration 0050 wrote it.

  Proved:
   * fixation computes what the oracle computes, for a resolution of any age
     (`fixedFloor_eq_oracle`), and it is the fixation of the tables (`fixedPolicy_effective`);
   * 0050's branch agrees with both unless a local group is no longer the Organization's and
     the observation would leave something published: it looks at the observed groups only
     (`floorsAgree_iff`);
   * 0051 replaced the branch's validation by the verifier's, and kept the branch: what an
     application leaves as the effective setting is 0050's branch on what the verifier found
     (`applyEvidence_effective`).
-/

import ContextEngine.Control.FailClosed

namespace ContextEngine.Control.ArticlePolicy

open ContextEngine.Machine ContextEngine.Python ContextEngine.Postgres ContextEngine.Runtime ContextEngine.Supply

/-! ## The oracle -/

/-- `GroupDirectory.resolve_organization_id`. -/
abbrev GroupDirectory := String → Option UUID

/-- `ArticleAccessPolicy`, which only `create` builds. -/
structure ArticleAccessPolicy where
  organizationId : UUID
  setting : ArticleAccessPolicySetting
  version : Nat

/-- What a use boundary of the module raises. -/
inductive PolicyError where
  | valueError
  deriving DecidableEq

/-- `ArticlePolicyResolution`: isolation, and no other rung, carries no policy. -/
structure ArticlePolicyResolution where
  policy : Option ArticleAccessPolicy
  rung : Rung
  isolated : rung = .isolation ↔ policy = none

def ArticlePolicyResolution.isolation : ArticlePolicyResolution := ⟨none, .isolation, by simp⟩

/-- `SourceAclEvidence`: a resolved observation, and no other, carries a setting. -/
structure SourceAclEvidence where
  status : ObservationStatus
  observedPolicy : Option ArticleAccessPolicySetting
  resolved : status = .resolved ↔ observedPolicy.isSome

section Oracle

variable (organizationId : UUID) (directory : GroupDirectory)

/-- The group belongs to the Organization. -/
def owns (group : String) : Bool := directory group == some organizationId

/-- `_validated_policy`: every group has to be the Organization's, and the version in range. -/
def validatedPolicy (setting : ArticleAccessPolicySetting) (version : Nat) : Except PolicyError ArticleAccessPolicy :=
  if (∀ g ∈ setting.groupRefs, owns organizationId directory g = true) ∧ 1 ≤ version ∧ version ≤ MAX_BIGINT then
    .ok ⟨organizationId, setting, version⟩
  else .error .valueError

/-- `resolve_article_access_policy`. -/
def resolveArticleAccessPolicy (explicit sourceDefault tenantDefault : Option ArticleAccessPolicySetting) :
    Except PolicyError ArticlePolicyResolution :=
  match explicit, sourceDefault, tenantDefault with
  | some setting, _, _ => do
    let policy ← validatedPolicy organizationId directory setting 1
    .ok ⟨some policy, .explicitArticle, by simp⟩
  | none, some setting, _ => do
    let policy ← validatedPolicy organizationId directory setting 1
    .ok ⟨some policy, .sourceDefault, by simp⟩
  | none, none, some setting => do
    let policy ← validatedPolicy organizationId directory setting 1
    .ok ⟨some policy, .tenantDefault, by simp⟩
  | none, none, none => .ok .isolation

/-- `apply_source_acl_floor`; what it catches isolates. -/
def applySourceAclFloor (localResolution : ArticlePolicyResolution) (evidence : Option SourceAclEvidence) :
    ArticlePolicyResolution :=
  match h : localResolution.policy with
  | none => localResolution
  | some policy =>
    match validatedPolicy organizationId directory policy.setting policy.version, evidence.bind (·.observedPolicy) with
    | .ok localPolicy, some observed =>
      match validatedPolicy organizationId directory observed localPolicy.version with
      | .ok source =>
        match intersectPolicySettings localPolicy.setting source.setting with
        | some setting =>
          match validatedPolicy organizationId directory setting localPolicy.version with
          | .ok effective => ⟨some effective, localResolution.rung, by simp [localResolution.isolated, h]⟩
          | .error _ => .isolation
        | none => .isolation
      | .error _ => .isolation
    | _, _ => .isolation

end Oracle

/-! ## The rows -/

/-- An array that holds a setting. -/
structure SettingRow where
  kind : PolicyKind
  groupRefs : List String
  shape : kind = .groups ↔ groupRefs ≠ []

/-- The setting that a row stands for. -/
def SettingRow.setting (r : SettingRow) : ArticleAccessPolicySetting :=
  ⟨r.kind, r.groupRefs.toFinset, by rw [r.shape, List.toFinset_nonempty_iff]⟩

/-- The columns. -/
def SettingRow.columns (r : SettingRow) : Setting := ⟨some r.kind, r.groupRefs⟩

/-- A row of `article_source_acl_observation`, up to what the floors read. -/
structure ObservationRow where
  status : ObservationStatus
  row : Option SettingRow
  resolved : status = .resolved ↔ row.isSome

def ObservationRow.evidence (o : ObservationRow) : SourceAclEvidence :=
  ⟨o.status, o.row.map (·.setting), by simp [o.resolved]⟩

def ObservationRow.columns (o : ObservationRow) : Setting := (o.row.map (·.columns)).getD .isolated

/-! ## Fixation (0042) -/

/-- The local setting of the cascade. -/
def cascaded (explicit sourceDefault tenantDefault : Option Setting) : Setting :=
  ((explicit.or sourceDefault).or tenantDefault).getD .isolated

/-- The effective setting that `context_fix_article_access_policy` inserts. -/
def fixedFloor (ownedGroup : String → Bool) (proposed : Setting) (observation : Option (ObservationStatus × Setting)) :
    Setting :=
  let localSetting := if proposed.policyKind = some .groups ∧ ¬proposed.groupRefs.all ownedGroup then .isolated else proposed
  match observation with
  | none => .isolated
  | some (status, observed) =>
    if localSetting.policyKind.isSome ∧ status = .resolved ∧
        ¬(observed.policyKind = some .groups ∧ ¬observed.groupRefs.all ownedGroup) then
      intersect localSetting observed
    else .isolated

/-- It is the effective setting of the row that fixation inserts. -/
theorem fixedPolicy_effective {server : Server} (w : Store server) (ref : String) (resource : Resource) :
    (w.fixedPolicy ref resource).effective =
      fixedFloor w.configuration.ownedGroup
        (cascaded (((w.configuration.explicitSetting ref).filter (·.1 = resource.sourceRef)).map (·.2))
          ((w.configuration.sourceDefault resource.sourceRef).filter (·.policyKind.isSome))
          (w.configuration.tenantDefault.filter (·.policyKind.isSome)))
        ((w.ownObservation ref resource).map fun o => (o.status, o.setting)) := by
  have hcascade : (w.cascade ref resource).1 =
      let proposed := cascaded (((w.configuration.explicitSetting ref).filter (·.1 = resource.sourceRef)).map (·.2))
        ((w.configuration.sourceDefault resource.sourceRef).filter (·.policyKind.isSome))
        (w.configuration.tenantDefault.filter (·.policyKind.isSome))
      if proposed.policyKind = some .groups ∧ ¬proposed.groupRefs.all w.configuration.ownedGroup then .isolated else proposed := by
    simp only [Store.cascade, cascaded]
    cases (w.configuration.explicitSetting ref).filter (·.1 = resource.sourceRef) with
    | some setting =>
      simp only [Option.map_some, Option.some_or, Option.getD_some]
      exact apply_ite Prod.fst _ _ _
    | none =>
      cases (w.configuration.sourceDefault resource.sourceRef).filter (·.policyKind.isSome) with
      | some setting =>
        simp only [Option.map_none, Option.none_or, Option.some_or, Option.getD_some]
        exact apply_ite Prod.fst _ _ _
      | none =>
        cases w.configuration.tenantDefault.filter (·.policyKind.isSome) with
        | some setting =>
          simp only [Option.map_none, Option.none_or, Option.getD_some]
          exact apply_ite Prod.fst _ _ _
        | none =>
          simp only [Option.map_none, Option.none_or, Option.getD_none, Setting.isolated]
          simp
  simp only [Store.fixedPolicy, fixedFloor, ← hcascade, Store.fixedSetting]
  cases w.ownObservation ref resource with
  | none => rfl
  | some o =>
    simp only [Option.map_some]
    cases hkind : (w.cascade ref resource).1.policyKind with
    | none => simp [intersect, hkind]
    | some kind => simp

/-! ## The branch of 0050 -/

/-- What the function reads of an artifact; status and kind may be NULL. -/
structure Artifact where
  status : Option String
  policyKind : Option String
  localGroupRefs : List String
  localPrincipalRefs : List String
  unresolvedGroupRefs : Nat

/-- The condition that makes of an artifact an unresolved group; a NULL comparison is not true. -/
def Artifact.unusable (ownedGroup : String → Bool) (a : Artifact) : Bool :=
  a.status.any (fun s => s != "resolved" && s != "failed" && s != "unresolved_group") ||
    (a.status == some "resolved" && a.policyKind.any fun k => (PolicyKind.ofText k).isNone) ||
    (a.status.any (· != "resolved") && a.policyKind.isSome) ||
    (a.policyKind == some "groups" && a.localGroupRefs.isEmpty) ||
    (a.policyKind.any (· != "groups") && !a.localGroupRefs.isEmpty) ||
    (a.status == some "unresolved_group" && a.unresolvedGroupRefs == 0) ||
    a.localPrincipalRefs.any (fun p => trimsEmpty p || p.toList.any isSpace) ||
    a.localGroupRefs.any (!ownedGroup ·)

/-- A resolved artifact of the right shape is unusable exactly if it lists a group that the
    Organization does not own. -/
theorem unusable_resolved {ownedGroup : String → Bool} {a : Artifact} (hstatus : a.status = some "resolved")
    (hshape : ∀ k, a.policyKind = some k → (PolicyKind.ofText k).isSome ∧ (k = "groups" ↔ a.localGroupRefs ≠ []))
    (hprincipals : ∀ p ∈ a.localPrincipalRefs, trimsEmpty p = false ∧ p.toList.any isSpace = false) :
    a.unusable ownedGroup = a.localGroupRefs.any (!ownedGroup ·) := by
  have hprincipals : a.localPrincipalRefs.any (fun p => trimsEmpty p || p.toList.any isSpace) = false := by
    rw [List.any_eq_false]
    intro p hp
    obtain ⟨h1, h2⟩ := hprincipals p hp
    simp [h1, h2]
  rw [Artifact.unusable, hstatus, hprincipals]
  cases hkind : a.policyKind with
  | none => simp
  | some k =>
    obtain ⟨hsome, hgroups⟩ := hshape k hkind
    have hnone : (PolicyKind.ofText k).isNone = false := by rw [← Option.not_isSome, hsome]; rfl
    by_cases hk : k = "groups"
    · have hne : a.localGroupRefs.isEmpty = false := by
        rw [← Bool.not_eq_true, List.isEmpty_iff]
        exact hgroups.mp hk
      rw [hk] at hnone
      simp [hnone, hk, hne]
    · have hempty : a.localGroupRefs = [] := by
        by_contra hne
        exact hk (hgroups.mpr hne)
      simp [hnone, hk, hempty]

/-- `artifact_status`, with `artifact_policy_kind` and `artifact_groups`. -/
def Artifact.normalized (ownedGroup : String → Bool) (a : Artifact) : Option String × Setting :=
  if a.unusable ownedGroup then (some "unresolved_group", .isolated)
  else (a.status, ⟨a.policyKind.bind PolicyKind.ofText, sortedBy id a.localGroupRefs⟩)

/-- The effective setting that `context_control_apply_feishu_acl_observation` updates the policy to. -/
def appliedFloor (ownedGroup : String → Bool) (localSetting : Setting) (a : Artifact) : Setting :=
  let (status, observed) := a.normalized ownedGroup
  if status.any (· != "resolved") ∨ localSetting.policyKind = none then .isolated else intersect localSetting observed

/-! ## Agreement -/

def kindText : PolicyKind → String
  | .private_ => "private"
  | .organization => "organization"
  | .groups => "groups"

theorem ofText_kindText (k : PolicyKind) : PolicyKind.ofText (kindText k) = some k := by cases k <;> rfl

theorem kindText_eq_groups (k : PolicyKind) : kindText k = "groups" ↔ k = .groups := by cases k <;> decide

def statusText : ObservationStatus → String
  | .resolved => "resolved"
  | .missing => "missing"
  | .failed => "failed"
  | .unresolvedGroup => "unresolved_group"

/-- What the floors are asked about one article. -/
structure Situation where
  organizationId : UUID
  directory : GroupDirectory
  explicit : Option SettingRow
  sourceDefault : Option SettingRow
  tenantDefault : Option SettingRow
  observation : Option ObservationRow
  /-- The principals of the artifact, and how many groups it could not resolve. -/
  principalRefs : List String
  principalRefs_valid : ∀ p ∈ principalRefs, trimsEmpty p = false ∧ p.toList.any isSpace = false
  unresolvedGroupRefs : Nat

namespace Situation

variable (s : Situation)

/-- The groups of the Organization now. -/
def owned : String → Bool := owns s.organizationId s.directory

def localRow : Option SettingRow := (s.explicit.or s.sourceDefault).or s.tenantDefault

def observed : Option SettingRow := s.observation.bind (·.row)

/-- The artifact that says what was observed. -/
def artifact : Artifact where
  status := some (statusText ((s.observation.map (·.status)).getD .missing))
  policyKind := s.observed.map (kindText ·.kind)
  localGroupRefs := (s.observed.map (·.groupRefs)).getD []
  localPrincipalRefs := s.principalRefs
  unresolvedGroupRefs := s.unresolvedGroupRefs

def resolvedBy (directory : GroupDirectory) : Except PolicyError ArticlePolicyResolution :=
  resolveArticleAccessPolicy s.organizationId directory (s.explicit.map (·.setting)) (s.sourceDefault.map (·.setting))
    (s.tenantDefault.map (·.setting))

def fixed : Setting :=
  fixedFloor s.owned (cascaded (s.explicit.map (·.columns)) (s.sourceDefault.map (·.columns)) (s.tenantDefault.map (·.columns)))
    (s.observation.map fun o => (o.status, o.columns))

def applied : Setting := appliedFloor s.owned ((s.localRow.map (·.columns)).getD .isolated) s.artifact

end Situation

/-- Nothing, or a kind with a set of groups. -/
abbrev Published := Option (PolicyKind × Finset String)

def ArticleAccessPolicySetting.published (s : ArticleAccessPolicySetting) : PolicyKind × Finset String := (s.kind, s.groupRefs)

def ArticlePolicyResolution.published (r : ArticlePolicyResolution) : Published := r.policy.map (·.setting.published)

def Setting.published (s : Setting) : Published := s.policyKind.map (·, s.groupRefs.toFinset)

/-- The three floors publish the same: the oracle for a local resolution of any age, and for
    one that today's groups refuse. -/
def FloorsAgree (s : Situation) : Prop :=
  (∀ earlier r, s.resolvedBy earlier = .ok r →
      (applySourceAclFloor s.organizationId s.directory r (s.observation.map (·.evidence))).published = s.fixed.published) ∧
    (∀ e, s.resolvedBy s.directory = .error e → s.fixed.published = none) ∧ s.applied.published = s.fixed.published

/-- The local setting lists a group that the Organization does not own, and the observation is
    resolved, to groups that it owns, and leaves some reader. -/
def Unguarded (s : Situation) : Prop :=
  ∃ localRow observed, s.localRow = some localRow ∧ s.observed = some observed ∧
    (∃ g ∈ localRow.groupRefs, s.owned g = false) ∧ (∀ g ∈ observed.groupRefs, s.owned g = true) ∧
    (observed.kind = .groups → ∃ g ∈ localRow.groupRefs, g ∈ observed.groupRefs)

/-! ## What each floor publishes -/

section Floors

/-- The rule, over settings. -/
def floorOf (owned : String → Bool) (localSetting observed : Option ArticleAccessPolicySetting) : Option ArticleAccessPolicySetting :=
  localSetting.bind fun l => observed.bind fun o =>
    if (∀ g ∈ l.groupRefs, owned g = true) ∧ ∀ g ∈ o.groupRefs, owned g = true then intersectPolicySettings l o else none

variable {organizationId : UUID} {directory : GroupDirectory}

theorem validatedPolicy_ok {setting : ArticleAccessPolicySetting}
    (h : ∀ g ∈ setting.groupRefs, owns organizationId directory g = true) :
    validatedPolicy organizationId directory setting 1 = .ok ⟨organizationId, setting, 1⟩ :=
  if_pos ⟨h, by decide, by decide⟩

theorem validatedPolicy_error {setting : ArticleAccessPolicySetting} {version : Nat}
    (h : ¬∀ g ∈ setting.groupRefs, owns organizationId directory g = true) :
    validatedPolicy organizationId directory setting version = .error .valueError :=
  if_neg fun hall => h hall.1

/-- The intersection lists groups of one side. -/
theorem intersectPolicySettings_subset {l o i : ArticleAccessPolicySetting} (h : intersectPolicySettings l o = some i) :
    i.groupRefs ⊆ l.groupRefs ∨ i.groupRefs ⊆ o.groupRefs := by
  unfold intersectPolicySettings at h
  split_ifs at h <;> simp only [Option.some.injEq] at h <;> subst h
  · exact .inl subset_rfl
  · exact .inr subset_rfl
  · exact .inr subset_rfl
  · exact .inl subset_rfl
  · exact .inl Finset.inter_subset_left

/-- What a resolution fixed, whenever that was. -/
theorem resolveArticleAccessPolicy_ok {explicit sourceDefault tenantDefault : Option ArticleAccessPolicySetting}
    {r : ArticlePolicyResolution}
    (h : resolveArticleAccessPolicy organizationId directory explicit sourceDefault tenantDefault = .ok r) :
    r.policy = ((explicit.or sourceDefault).or tenantDefault).map (⟨organizationId, ·, 1⟩) := by
  have hvalid : ∀ {setting : ArticleAccessPolicySetting} {f : ArticleAccessPolicy → ArticlePolicyResolution},
      (do let policy ← validatedPolicy organizationId directory setting 1; .ok (f policy)) = .ok r →
      r = f ⟨organizationId, setting, 1⟩ := by
    intro setting f hf
    by_cases hall : ∀ g ∈ setting.groupRefs, owns organizationId directory g = true
    · rw [validatedPolicy_ok hall] at hf
      exact (Except.ok.inj hf).symm
    · rw [validatedPolicy_error hall] at hf
      cases hf
  unfold resolveArticleAccessPolicy at h
  split at h
  · rw [hvalid h]
    rfl
  · rw [hvalid h]
    rfl
  · rw [hvalid h]
    rfl
  · obtain rfl := Except.ok.inj h
    rfl

theorem resolveArticleAccessPolicy_error {explicit sourceDefault tenantDefault : Option ArticleAccessPolicySetting} {e : PolicyError}
    (h : resolveArticleAccessPolicy organizationId directory explicit sourceDefault tenantDefault = .error e) :
    ∃ l, (explicit.or sourceDefault).or tenantDefault = some l ∧ ¬∀ g ∈ l.groupRefs, owns organizationId directory g = true := by
  have hinvalid : ∀ {setting : ArticleAccessPolicySetting} {f : ArticleAccessPolicy → ArticlePolicyResolution},
      (do let policy ← validatedPolicy organizationId directory setting 1; .ok (f policy)) = .error e →
      ¬∀ g ∈ setting.groupRefs, owns organizationId directory g = true := by
    intro setting f herror hall
    rw [validatedPolicy_ok hall] at herror
    cases herror
  unfold resolveArticleAccessPolicy at h
  split at h
  · exact ⟨_, rfl, hinvalid h⟩
  · exact ⟨_, rfl, hinvalid h⟩
  · exact ⟨_, rfl, hinvalid h⟩
  · cases h

/-- The oracle, from what its resolution fixed. -/
theorem applySourceAclFloor_published {r : ArticlePolicyResolution} {l : Option ArticleAccessPolicySetting}
    (hr : r.policy = l.map (⟨organizationId, ·, 1⟩)) (evidence : Option SourceAclEvidence) :
    (applySourceAclFloor organizationId directory r evidence).published =
      (floorOf (owns organizationId directory) l (evidence.bind (·.observedPolicy))).map (·.published) := by
  cases l with
  | none =>
    have hnone : r.policy = none := hr
    unfold applySourceAclFloor
    split
    · simp [floorOf, ArticlePolicyResolution.published, hnone]
    next policy hpolicy => rw [hnone] at hpolicy; cases hpolicy
  | some l =>
    unfold applySourceAclFloor
    split
    next hpolicy => rw [hr] at hpolicy; cases hpolicy
    next policy hpolicy =>
      obtain rfl : policy = ⟨organizationId, l, 1⟩ := by
        rw [hr] at hpolicy
        exact (Option.some.inj hpolicy).symm
      by_cases hl : ∀ g ∈ l.groupRefs, owns organizationId directory g = true
      · cases hobserved : evidence.bind (·.observedPolicy) with
        | none => simp [validatedPolicy_ok hl, floorOf, ArticlePolicyResolution.published, ArticlePolicyResolution.isolation]
        | some o =>
          by_cases ho : ∀ g ∈ o.groupRefs, owns organizationId directory g = true
          · cases hi : intersectPolicySettings l o with
            | none =>
              simp [validatedPolicy_ok hl, validatedPolicy_ok ho, hi, floorOf, ArticlePolicyResolution.published,
                ArticlePolicyResolution.isolation]
            | some i =>
              have hi' : ∀ g ∈ i.groupRefs, owns organizationId directory g = true := by
                intro g hg
                rcases intersectPolicySettings_subset hi with hsub | hsub
                · exact hl g (hsub hg)
                · exact ho g (hsub hg)
              have hfloor : floorOf (owns organizationId directory) (some l) (some o) = some i := by
                simp only [floorOf, Option.bind_some, if_pos (And.intro hl ho), hi]
              rw [hfloor]
              simp only [validatedPolicy_ok hl, validatedPolicy_ok ho, hi, validatedPolicy_ok hi']
              rfl
          · simp only [validatedPolicy_ok hl, validatedPolicy_error ho]
            simp [floorOf, ho, ArticlePolicyResolution.published, ArticlePolicyResolution.isolation]
      · simp only [validatedPolicy_error hl]
        cases evidence.bind (·.observedPolicy) <;>
          simp [floorOf, hl, ArticlePolicyResolution.published, ArticlePolicyResolution.isolation]

/-- The case table of the functions publishes what the oracle's does. -/
theorem intersect_published (l o : SettingRow) :
    (intersect l.columns o.columns).published = (intersectPolicySettings l.setting o.setting).map (·.published) := by
  obtain ⟨lk, lg, hl⟩ := l
  obtain ⟨ok, og, ho⟩ := o
  simp only [SettingRow.columns, SettingRow.setting]
  cases lk with
  | private_ =>
    have hempty : lg = [] := by simpa using hl
    simp [intersect, intersectPolicySettings, Setting.published, ArticleAccessPolicySetting.published, hempty]
  | organization =>
    cases ok with
    | private_ =>
      have hempty : og = [] := by simpa using ho
      simp [intersect, intersectPolicySettings, Setting.published, ArticleAccessPolicySetting.published, hempty]
    | organization => simp [intersect, intersectPolicySettings, Setting.published, ArticleAccessPolicySetting.published]
    | groups => simp [intersect, intersectPolicySettings, Setting.published, ArticleAccessPolicySetting.published]
  | groups =>
    cases ok with
    | private_ =>
      have hempty : og = [] := by simpa using ho
      simp [intersect, intersectPolicySettings, Setting.published, ArticleAccessPolicySetting.published, hempty]
    | organization => simp [intersect, intersectPolicySettings, Setting.published, ArticleAccessPolicySetting.published]
    | groups =>
      have hshared : (sharedGroups lg og).toFinset = lg.toFinset ∩ og.toFinset := by
        ext g
        simp [sharedGroups, mem_distinctAgg]
      have hempty : (sharedGroups lg og).isEmpty = true ↔ ¬(lg.toFinset ∩ og.toFinset).Nonempty := by
        rw [List.isEmpty_iff, ← hshared, List.toFinset_nonempty_iff, not_not]
      by_cases hnone : (lg.toFinset ∩ og.toFinset).Nonempty
      · have hsome : ¬(sharedGroups lg og).isEmpty = true := fun h => hempty.mp h hnone
        simp only [intersect, hsome, intersectPolicySettings, reduceCtorEq, if_false, dif_pos hnone]
        simp [Setting.published, ArticleAccessPolicySetting.published, hshared]
      · simp only [intersect, hempty.mpr hnone, intersectPolicySettings, reduceCtorEq, if_false, dif_neg hnone]
        simp [Setting.published, Setting.isolated]

theorem all_owned (owned : String → Bool) (r : SettingRow) :
    r.groupRefs.all owned = true ↔ ∀ g ∈ r.setting.groupRefs, owned g = true := by
  simp [SettingRow.setting]

/-- A setting lists groups only where its kind is. -/
theorem disowned_iff (owned : String → Bool) (r : SettingRow) :
    r.kind = .groups ∧ ¬r.groupRefs.all owned = true ↔ ¬∀ g ∈ r.setting.groupRefs, owned g = true := by
  rw [all_owned, and_iff_right_iff_imp]
  intro hdisowned
  by_contra hkind
  have hempty : r.groupRefs = [] := by
    by_contra hne
    exact hkind (r.shape.mpr hne)
  exact hdisowned (by simp [SettingRow.setting, hempty])

variable (s : Situation)

theorem cascaded_eq : cascaded (s.explicit.map (·.columns)) (s.sourceDefault.map (·.columns)) (s.tenantDefault.map (·.columns)) =
    (s.localRow.map (·.columns)).getD .isolated := by
  simp only [cascaded, Situation.localRow]
  cases s.explicit <;> cases s.sourceDefault <;> cases s.tenantDefault <;> rfl

/-- Fixation of a row against a resolved observation. -/
theorem fixedFloor_resolved (owned : String → Bool) (l o : SettingRow) :
    fixedFloor owned l.columns (some (.resolved, o.columns)) =
      if (∀ g ∈ l.setting.groupRefs, owned g = true) ∧ ∀ g ∈ o.setting.groupRefs, owned g = true then
        intersect l.columns o.columns
      else .isolated := by
  have hkind (r : SettingRow) : r.columns.policyKind = some .groups ∧ ¬r.columns.groupRefs.all owned = true ↔
      ¬∀ g ∈ r.setting.groupRefs, owned g = true := by
    rw [← disowned_iff, SettingRow.columns, Option.some.injEq]
  have hsome : l.columns.policyKind.isSome = true := rfl
  simp only [fixedFloor, hkind]
  by_cases hl : ∀ g ∈ l.setting.groupRefs, owned g = true
  · rw [if_neg (not_not.mpr hl)]
    by_cases ho : ∀ g ∈ o.setting.groupRefs, owned g = true
    · rw [if_pos ⟨hsome, trivial, not_not.mpr ho⟩, if_pos ⟨hl, ho⟩]
    · rw [if_neg fun h => h.2.2 ho, if_neg fun h => ho h.2]
  · rw [if_pos hl, if_neg fun h => Bool.false_ne_true h.1, if_neg fun h => hl h.1]

/-- Fixation publishes by the rule. -/
theorem fixed_published :
    s.fixed.published = (floorOf s.owned (s.localRow.map (·.setting)) (s.observed.map (·.setting))).map (·.published) := by
  simp only [Situation.fixed, cascaded_eq, Situation.observed]
  cases hl : s.localRow with
  | none => cases s.observation <;> simp [fixedFloor, floorOf, Setting.isolated, Setting.published]
  | some l =>
    cases s.observation with
    | none => simp [fixedFloor, floorOf, Setting.isolated, Setting.published]
    | some o =>
      obtain ⟨status, row, hrow⟩ := o
      cases row with
      | none =>
        have hstatus : status ≠ .resolved := by simpa using hrow
        simp [fixedFloor, floorOf, Setting.isolated, Setting.published, hstatus]
      | some o =>
        have hstatus : status = .resolved := by simpa using hrow
        subst hstatus
        have hfloor := fixedFloor_resolved s.owned l o
        simp only [Option.map_some, Option.getD_some, ObservationRow.columns, Option.bind_some, floorOf] at hfloor ⊢
        rw [hfloor]
        split_ifs
        · exact intersect_published l o
        · rfl

/-- The artifact of an observation is unusable exactly where it resolves nothing that the
    Organization owns. -/
theorem unusable_artifact {o : ObservationRow} (ho : s.observation = some o) {row : SettingRow} (hrow : o.row = some row) :
    s.artifact.unusable s.owned = row.groupRefs.any (!s.owned ·) := by
  have hstatus : o.status = .resolved := by simp [o.resolved, hrow]
  have hobserved : s.observed = some row := by simp [Situation.observed, ho, hrow]
  have hgroups : s.artifact.localGroupRefs = row.groupRefs := by simp [Situation.artifact, hobserved]
  rw [← hgroups]
  refine unusable_resolved (by simp [Situation.artifact, ho, hstatus, statusText]) ?_ s.principalRefs_valid
  intro k hk
  obtain rfl : kindText row.kind = k := by simpa [Situation.artifact, hobserved] using hk
  rw [ofText_kindText, kindText_eq_groups, hgroups]
  exact ⟨rfl, row.shape⟩

/-- A row with its groups in order. -/
def SettingRow.sorted (r : SettingRow) : SettingRow :=
  ⟨r.kind, sortedBy id r.groupRefs, by
    rw [r.shape, ne_eq, ne_eq, not_iff_not, List.eq_nil_iff_forall_not_mem, List.eq_nil_iff_forall_not_mem]
    simp only [mem_sortedBy]⟩

theorem sorted_setting (r : SettingRow) : r.sorted.setting = r.setting := by
  simp only [SettingRow.sorted, SettingRow.setting, ArticleAccessPolicySetting.mk.injEq, true_and]
  ext g
  simp [mem_sortedBy]

/-- 0050's branch publishes what the rule does with every local group taken for an owned one. -/
theorem applied_published : s.applied.published =
    (s.localRow.bind fun l => s.observed.bind fun o =>
      if ∀ g ∈ o.setting.groupRefs, s.owned g = true then intersectPolicySettings l.setting o.setting else none).map (·.published) := by
  cases ho : s.observation with
  | none =>
    have hobserved : s.observed = none := by simp [Situation.observed, ho]
    have hunusable : s.artifact.unusable s.owned = true := by simp [Artifact.unusable, Situation.artifact, ho, statusText]
    simp [Situation.applied, appliedFloor, Artifact.normalized, hunusable, hobserved, Setting.isolated, Setting.published]
  | some o =>
    cases hrow : o.row with
    | none =>
      have hobserved : s.observed = none := by simp [Situation.observed, ho, hrow]
      have hstatus : o.status ≠ .resolved := by simp [o.resolved, hrow]
      have htext : ((s.artifact.normalized s.owned).1.any (· != "resolved")) = true := by
        simp only [Artifact.normalized]
        split_ifs
        · decide
        · simp only [Situation.artifact, ho, Option.map_some, Option.getD_some]
          cases hs : o.status <;> simp_all [statusText]
      simp [Situation.applied, appliedFloor, htext, hobserved, Setting.isolated, Setting.published]
    | some row =>
      have hobserved : s.observed = some row := by simp [Situation.observed, ho, hrow]
      have hstatus : o.status = .resolved := by simp [o.resolved, hrow]
      have hunusable := unusable_artifact s ho hrow
      cases hl : s.localRow with
      | none => simp [Situation.applied, appliedFloor, hl, Setting.isolated, Setting.published]
      | some l =>
        by_cases howned : ∀ g ∈ row.setting.groupRefs, s.owned g = true
        · have husable : s.artifact.unusable s.owned = false := by
            rw [hunusable, List.any_eq_false]
            intro g hg
            simp [howned g (by simpa [SettingRow.setting] using hg)]
          have hnormal : s.artifact.normalized s.owned = (some "resolved", row.sorted.columns) := by
            simp only [Artifact.normalized, husable]
            simp [Situation.artifact, ho, hobserved, hstatus, statusText, SettingRow.sorted, SettingRow.columns, ofText_kindText]
          simp only [Situation.applied, appliedFloor, hnormal, hl, hobserved, Option.map_some, Option.getD_some, Option.bind_some,
            if_pos howned]
          rw [if_neg (by simp [SettingRow.columns]), intersect_published, sorted_setting]
        · have hdrop : s.artifact.unusable s.owned = true := by
            rw [hunusable, List.any_eq_true]
            push Not at howned
            obtain ⟨g, hg, hdisowned⟩ := howned
            exact ⟨g, by simpa [SettingRow.setting] using hg, by simp [hdisowned]⟩
          simp [Situation.applied, appliedFloor, Artifact.normalized, hdrop, hobserved, howned, Setting.isolated, Setting.published]

end Floors

/-! ## The three floors -/

/-- What 0050 publishes and the rule does not. -/
theorem intersectPolicySettings_isSome (l o : SettingRow) : (intersectPolicySettings l.setting o.setting).isSome = true ↔
    (l.kind = .groups → o.kind = .groups → ∃ g ∈ l.groupRefs, g ∈ o.groupRefs) := by
  obtain ⟨lk, lg, hl⟩ := l
  obtain ⟨ok, og, ho⟩ := o
  have hshared : (lg.toFinset ∩ og.toFinset).Nonempty ↔ ∃ g ∈ lg, g ∈ og := by simp [Finset.Nonempty]
  cases lk with
  | private_ => simp [intersectPolicySettings, SettingRow.setting]
  | organization => cases ok <;> simp [intersectPolicySettings, SettingRow.setting]
  | groups =>
    cases ok with
    | private_ => simp [intersectPolicySettings, SettingRow.setting]
    | organization => simp [intersectPolicySettings, SettingRow.setting]
    | groups =>
      simp only [intersectPolicySettings, SettingRow.setting, reduceCtorEq, if_false, true_implies, ← hshared]
      split_ifs with h <;> simp [h]

/-- A local group that is no longer owned, and a source that admits the whole Organization. -/
def staleSituation : Situation where
  organizationId := .ofNat 1
  directory := fun _ => none
  explicit := some ⟨.groups, ["group:team-a"], by simp⟩
  sourceDefault := none
  tenantDefault := none
  observation := some ⟨.resolved, some ⟨.organization, [], by simp⟩, by simp⟩
  principalRefs := []
  principalRefs_valid := by simp
  unresolvedGroupRefs := 0

/-- The oracle and fixation isolate; 0050's branch publishes the local groups. -/
theorem floorsAgree_stale : ¬FloorsAgree staleSituation := by
  rintro ⟨-, -, h⟩
  have hfixed : staleSituation.fixed.published = none := by decide
  have happlied : staleSituation.applied.published = some (.groups, {"group:team-a"}) := by decide
  rw [hfixed, happlied] at h
  cases h

/-- **The floors agree exactly while the local groups are guarded.** The oracle and fixation
    publish the same in every situation; 0050's branch does too, unless the local setting lists
    a group that is no longer the Organization's and the observation leaves some reader. -/
theorem floorsAgree_iff (s : Situation) : FloorsAgree s ↔ ¬Unguarded s := by
  have horacle : ∀ earlier r, s.resolvedBy earlier = .ok r →
      (applySourceAclFloor s.organizationId s.directory r (s.observation.map (·.evidence))).published = s.fixed.published := by
    intro earlier r hr
    have hpolicy : r.policy = (s.localRow.map (·.setting)).map (⟨s.organizationId, ·, 1⟩) := by
      rw [resolveArticleAccessPolicy_ok hr, Situation.localRow]
      cases s.explicit <;> cases s.sourceDefault <;> cases s.tenantDefault <;> rfl
    rw [applySourceAclFloor_published hpolicy, fixed_published]
    simp only [Situation.observed, Situation.owned]
    cases s.observation <;> rfl
  have hrefused : ∀ e, s.resolvedBy s.directory = .error e → s.fixed.published = none := by
    intro e he
    obtain ⟨l, hl, hdisowned⟩ := resolveArticleAccessPolicy_error he
    have hlocal : s.localRow.map (·.setting) = some l := by
      rw [← hl, Situation.localRow]
      cases s.explicit <;> cases s.sourceDefault <;> cases s.tenantDefault <;> rfl
    rw [fixed_published, hlocal]
    cases s.observed with
    | none => rfl
    | some o => simp [floorOf, Situation.owned, hdisowned]
  rw [FloorsAgree, and_iff_right horacle, and_iff_right hrefused, applied_published, fixed_published]
  constructor
  · rintro hsame ⟨l, o, hl, ho, ⟨g, hg, hdisowned⟩, howned, hshare⟩
    have hlocal : ¬∀ g ∈ l.setting.groupRefs, s.owned g = true :=
      fun h => by simp [h g (by simpa [SettingRow.setting] using hg)] at hdisowned
    have hobserved : ∀ g ∈ o.setting.groupRefs, s.owned g = true :=
      fun g hg => howned g (by simpa [SettingRow.setting] using hg)
    have hsome := (intersectPolicySettings_isSome l o).mpr fun _ => hshare
    have hrule : ¬((∀ g ∈ l.setting.groupRefs, s.owned g = true) ∧ ∀ g ∈ o.setting.groupRefs, s.owned g = true) :=
      fun h => hlocal h.1
    simp only [hl, ho, floorOf, Option.bind_some, Option.map_some, if_pos hobserved, if_neg hrule, Option.map_none,
      Option.map_eq_none_iff] at hsame
    rw [hsame] at hsome
    exact Bool.false_ne_true hsome
  · intro hguarded
    cases hl : s.localRow with
    | none => rfl
    | some l =>
      cases ho : s.observed with
      | none => rfl
      | some o =>
        simp only [floorOf, Option.bind_some, Option.map_some]
        by_cases hobserved : ∀ g ∈ o.setting.groupRefs, s.owned g = true
        · by_cases hlocal : ∀ g ∈ l.setting.groupRefs, s.owned g = true
          · rw [if_pos hobserved, if_pos ⟨hlocal, hobserved⟩]
          · rw [if_pos hobserved, if_neg fun h => hlocal h.1, Option.map_none, Option.map_eq_none_iff]
            by_contra hsome
            refine hguarded ⟨l, o, hl, ho, ?_, fun g hg => hobserved g (by simpa [SettingRow.setting] using hg), ?_⟩
            · push Not at hlocal
              obtain ⟨g, hg, hdisowned⟩ := hlocal
              exact ⟨g, by simpa [SettingRow.setting] using hg, by simpa using hdisowned⟩
            · have hshare := (intersectPolicySettings_isSome l o).mp (Option.isSome_iff_ne_none.mpr hsome)
              refine hshare ?_
              by_contra hkind
              exact hlocal (by simp [SettingRow.setting, show l.groupRefs = [] by
                by_contra hne
                exact hkind (l.shape.mpr hne)])
        · rw [if_neg hobserved, if_neg fun h => hobserved h.2]

/-! ## The branch after 0051 -/

section Applied

variable {server : Server} {w w' : Store server} {sourceId versionId : UUID} {ref : String} {acl : Option Jsonb} {e : AclEvidence}
  {p : Policy} {owned : String → Bool} {localSetting : Setting} {unresolvedGroupRefs : Nat}

/-- Evidence, as an artifact that 0050's branch reads. -/
def AclEvidence.artifact (e : AclEvidence) (unresolvedGroupRefs : Nat) : Artifact where
  status := some (statusText e.status)
  policyKind := e.setting.policyKind.map kindText
  localGroupRefs := e.setting.groupRefs
  localPrincipalRefs := e.principals
  unresolvedGroupRefs

/-- What the verifier resolves is in order, and passes 0050's validation. -/
structure Usable (owned : String → Bool) (e : AclEvidence) : Prop where
  shape : ∀ k, e.setting.policyKind = some k → (k = .groups ↔ e.setting.groupRefs ≠ [])
  owned : ∀ g ∈ e.setting.groupRefs, owned g = true
  sorted : sortedBy id e.setting.groupRefs = e.setting.groupRefs
  principals : ∀ q ∈ e.principals, trimsEmpty q = false ∧ q.toList.any isSpace = false

theorem Usable.not_unusable (h : Usable owned e) (hstatus : e.status = .resolved) :
    (e.artifact unresolvedGroupRefs).unusable owned = false := by
  have hshape : ∀ k, (e.artifact unresolvedGroupRefs).policyKind = some k →
      (PolicyKind.ofText k).isSome ∧ (k = "groups" ↔ (e.artifact unresolvedGroupRefs).localGroupRefs ≠ []) := by
    intro k hk
    obtain ⟨kind, hkind, rfl⟩ := Option.map_eq_some_iff.mp hk
    rw [ofText_kindText, kindText_eq_groups]
    exact ⟨rfl, h.shape kind hkind⟩
  rw [unusable_resolved (by rw [AclEvidence.artifact, hstatus]; rfl) hshape h.principals, List.any_eq_false]
  intro g hg
  simp [h.owned g hg]

theorem appliedFloor_of_usable (h : Usable owned e) (hstatus : e.status = .resolved) :
    appliedFloor owned localSetting (e.artifact unresolvedGroupRefs) = intersect localSetting e.setting := by
  have hnormal : (e.artifact unresolvedGroupRefs).normalized owned = (some "resolved", e.setting) := by
    rw [Artifact.normalized, h.not_unusable hstatus, if_neg Bool.false_ne_true]
    have hkind : (e.setting.policyKind.map kindText).bind PolicyKind.ofText = e.setting.policyKind := by
      cases e.setting.policyKind with
      | none => rfl
      | some k => exact ofText_kindText k
    simp only [AclEvidence.artifact, hstatus, statusText, hkind, h.sorted]
  rw [appliedFloor, hnormal]
  by_cases hlocal : localSetting.policyKind = none
  · simp [hlocal, intersect]
  · simp [hlocal]

/-- Unresolved evidence isolates. -/
theorem appliedFloor_of_unresolved (hstatus : e.status ≠ .resolved) :
    appliedFloor owned localSetting (e.artifact unresolvedGroupRefs) = .isolated := by
  have htext : ((e.artifact unresolvedGroupRefs).normalized owned).1.any (· != "resolved") = true := by
    by_cases hunusable : (e.artifact unresolvedGroupRefs).unusable owned = true
    · simp [Artifact.normalized, hunusable]
    · rw [Artifact.normalized, if_neg hunusable, AclEvidence.artifact]
      cases hs : e.status with
      | resolved => exact absurd hs hstatus
      | _ => rfl
  rw [appliedFloor]
  exact if_pos (.inl htext)

/-- The groups that the verifier returns are the Organization's, in order. -/
theorem verify_groups {mapping : SubjectMapping} {artifact : Jsonb} {v : Verified}
    (hv : verifyAclArtifact server mapping owned artifact = .ok v) :
    (∀ g ∈ v.groups, owned g = true) ∧ sortedBy id v.groups = v.groups := by
  obtain ⟨f, hf⟩ := verify_flattening hv
  obtain ⟨groups, principals, computed, -, -, hcomputed, rfl⟩ := (verify_eq_ok_iff hf).mp hv
  obtain ⟨values, rfl, hvalues⟩ := computedGroups_eq hcomputed
  rcases verdict_cases server artifact (groups.any (unresolves mapping (shapedNodes server f.graph)))
    (orderedAgg f.claimedGroups) (orderedAgg f.claimedPrincipals) (distinctAgg values) principals with
    hrow | hrow | ⟨-, -, -, -, -, hrow⟩
  · simp [hrow, Verified.failed, sortedBy]
  · simp [hrow, Verified.unresolvedGroup, sortedBy]
  · rw [hrow]
    refine ⟨fun g hg => ((hvalues g).mp (mem_distinctAgg.mp hg)).2, ?_⟩
    exact sortedBy_of_pairwise (pairwise_sortedBy id _)

/-- Evidence that is resolved is usable; the texts that the mapping holds are checked by its table. -/
theorem evidence_usable (h : evidenceOf w sourceId ref acl = .ok e) (hstatus : e.status = .resolved)
    (hmapping : ∀ identity principal, w.configuration.mapping sourceId .identity identity = some principal →
      trimsEmpty principal = false ∧ principal.toList.any isSpace = false) : Usable w.configuration.ownedGroup e := by
  simp only [evidenceOf, bind_eq_ok, require_eq_ok, found_eq_ok, handled_eq_ok, exists_const, Except.ok.injEq] at h
  obtain ⟨-, -, -, t, -, n, -, _, -, artifact, -, v, hv, rfl⟩ := h
  change (w.worthOf ref v t n).status = .resolved at hstatus
  change Usable w.configuration.ownedGroup (w.worthOf ref v t n)
  by_cases hstale : w.observedSince ref t = true
  · rw [worthOf_stale hstale] at hstatus
    cases hstatus
  · rw [worthOf_fresh hstale] at hstatus ⊢
    rcases artifactEvidence_cases hv with rfl | rfl | ⟨-, -, hverified⟩
    · cases hstatus
    · cases hstatus
    · obtain ⟨howned, hsorted⟩ := verify_groups hverified
      rcases verify_cases hverified with rfl | rfl | ⟨-, hshape, hprincipals⟩
      · cases hstatus
      · cases hstatus
      · refine ⟨hshape, howned, hsorted, ?_⟩
        intro q hq
        obtain ⟨identity, hidentity⟩ := hprincipals q hq
        exact hmapping identity q hidentity

/-- **What an application leaves as the effective setting is 0050's branch on the evidence.** -/
theorem applyEvidence_effective {row : ApplyRow} {article : Resource} (he : evidenceOf w sourceId ref acl = .ok e)
    (hmapping : ∀ identity principal, w.configuration.mapping sourceId .identity identity = some principal →
      trimsEmpty principal = false ∧ principal.toList.any isSpace = false)
    (h : w.applyEvidence sourceId versionId ref false e = .ok (row, w')) (harticle : w.ownArticle sourceId ref = some article)
    (hp : w.policies ref = some p) : ∃ p', w'.policies ref = some p' ∧
      p'.effective = appliedFloor w.configuration.ownedGroup p.localSetting (e.artifact unresolvedGroupRefs) := by
  refine ⟨_, (applyEvidence_observed h harticle hp).1, ?_⟩
  by_cases hstatus : e.status = .resolved
  · rw [appliedFloor_of_usable (evidence_usable he hstatus hmapping) hstatus]
    exact if_pos hstatus
  · rw [appliedFloor_of_unresolved hstatus]
    exact if_neg hstatus

end Applied

end ContextEngine.Control.ArticlePolicy
