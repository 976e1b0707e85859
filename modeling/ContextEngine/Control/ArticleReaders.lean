/-
  ContextEngine.Control.ArticleReaders — who reads an article once a source observation was applied.
-/

import ContextEngine.Control.ArticlePolicyProofs

namespace ContextEngine.Control.ArticlePolicy

open ContextEngine.Machine ContextEngine.Python ContextEngine.Postgres ContextEngine.Runtime ContextEngine.Supply

variable {server : Server} {w w' : Store server}

/-! ## Readers -/

section Grants

variable {now : Timestamp} {gs : List Grant} {principal : String}

/-- The principal has an allowed row. -/
def Allowed (gs : List Grant) (principal : String) : Prop := ∃ g ∈ gs, g.principalRef = principal ∧ g.state = .allowed

/-- The principal has an allowed row at the last version, which nothing revokes. -/
def Stuck (gs : List Grant) (principal : String) : Prop :=
  ∃ g ∈ gs, g.principalRef = principal ∧ g.state = .allowed ∧ MAX_BIGINT ≤ g.accessVersion

/-- The principal can be allowed: it has no row yet, an allowed one, or one below the last version. -/
def Allowable (gs : List Grant) (principal : String) : Prop :=
  (∀ g ∈ gs, g.principalRef ≠ principal) ∨ ∃ g ∈ gs, g.principalRef = principal ∧ (g.state = .allowed ∨ g.accessVersion < MAX_BIGINT)

theorem allowed_revokeWhere {condition : Grant → Bool} : Allowed (revokeWhere now condition gs) principal ↔
    ∃ g ∈ gs, g.principalRef = principal ∧ g.state = .allowed ∧ (condition g = false ∨ MAX_BIGINT ≤ g.accessVersion) := by
  simp only [Allowed, revokeWhere, List.mem_map, exists_exists_and_eq_and]
  refine exists_congr fun g => and_congr_right fun _ => ?_
  by_cases hrevoked : (condition g && decide (g.state = .allowed ∧ g.accessVersion < MAX_BIGINT)) = true
  · simp only [hrevoked, if_true]
    simp only [Bool.and_eq_true, decide_eq_true_eq] at hrevoked
    obtain ⟨hc, -, hv⟩ := hrevoked
    have hv' : ¬MAX_BIGINT ≤ g.accessVersion := Nat.not_le.mpr hv
    simp [hc, hv']
  · simp only [hrevoked]
    simp only [Bool.and_eq_true, decide_eq_true_eq, not_and, Nat.not_lt] at hrevoked
    constructor
    · rintro ⟨hp, hs⟩
      refine ⟨hp, hs, ?_⟩
      by_cases hc : condition g = true
      · exact .inr (hrevoked hc hs)
      · exact .inl (by simpa using hc)
    · rintro ⟨hp, hs, -⟩
      exact ⟨hp, hs⟩

/-- Allowing touches no other principal. -/
theorem stuck_allowAll {principals : List String} (hout : principal ∉ principals) :
    Stuck (allowAll principals gs) principal ↔ Stuck gs principal := by
  constructor
  · rintro ⟨g, hg, hp, hs, hv⟩
    rcases List.mem_append.mp hg with hg | hg
    · obtain ⟨g', hg', rfl⟩ := List.mem_map.mp hg
      by_cases hin : decide (g'.principalRef ∈ principals ∧ g'.state = .revoked ∧ g'.accessVersion < MAX_BIGINT) = true
      · simp only [hin, if_true] at hp
        simp only [decide_eq_true_eq] at hin
        exact absurd (hp ▸ hin.1) hout
      · simp only [hin] at hp hs hv
        exact ⟨g', hg', hp, hs, hv⟩
    · obtain ⟨q, hq, rfl⟩ := List.mem_map.mp hg
      exact absurd (hp ▸ (List.mem_filter.mp hq).1) hout
  · rintro ⟨g, hg, hp, hs, hv⟩
    refine ⟨g, List.mem_append_left _ (List.mem_map.mpr ⟨g, hg, ?_⟩), hp, hs, hv⟩
    have : ¬(g.principalRef ∈ principals) := by rwa [hp]
    simp [this]

theorem allowed_allowAll {principals : List String} (hin : principal ∈ principals) :
    Allowed (allowAll principals gs) principal ↔ Allowable gs principal := by
  constructor
  · rintro ⟨g, hg, hp, hs⟩
    rcases List.mem_append.mp hg with hg | hg
    · obtain ⟨g', hg', rfl⟩ := List.mem_map.mp hg
      refine .inr ⟨g', hg', ?_⟩
      by_cases hup : decide (g'.principalRef ∈ principals ∧ g'.state = .revoked ∧ g'.accessVersion < MAX_BIGINT) = true
      · simp only [hup, if_true] at hp
        simp only [decide_eq_true_eq] at hup
        exact ⟨hp, .inr hup.2.2⟩
      · simp only [hup] at hp hs
        exact ⟨hp, .inl hs⟩
    · obtain ⟨q, hq, rfl⟩ := List.mem_map.mp hg
      have hnone := (List.mem_filter.mp hq).2
      simp only [List.all_eq_true, decide_eq_true_eq] at hnone
      exact .inl fun g hg => hp ▸ hnone g hg
  · rintro (hnone | ⟨g, hg, hp, hup⟩)
    · refine ⟨⟨principal, 1, .allowed, none⟩, List.mem_append_right _ (List.mem_map.mpr ⟨principal, ?_, rfl⟩), rfl, rfl⟩
      exact List.mem_filter.mpr ⟨hin, by simpa using hnone⟩
    · refine ⟨_, List.mem_append_left _ (List.mem_map.mpr ⟨g, hg, rfl⟩), ?_⟩
      cases hs : g.state with
      | allowed => simp [hs, hp]
      | revoked =>
        have hv : g.accessVersion < MAX_BIGINT := hup.resolve_left (by simp [hs])
        simp [hp, hin, hv]

/-- Who holds an allowed row after the evidence was applied, in the rows before it. -/
def Granted (e : AclEvidence) (gs : List Grant) (principal : String) : Prop :=
  if e.setting.policyKind = some .private_ ∧ principal ∈ e.principals then Allowable gs principal else Stuck gs principal

theorem allowed_grants {e : AclEvidence} (hstatus : e.status = .resolved) (hkind : e.setting.policyKind.isSome) :
    Allowed (e.grants now gs) principal ↔ Granted e gs principal := by
  by_cases hprivate : e.setting.policyKind = some .private_
  · by_cases hin : principal ∈ e.principals
    · rw [AclEvidence.grants, if_pos ⟨hstatus, hprivate⟩, Granted, if_pos ⟨hprivate, hin⟩, ← allowed_allowAll hin,
        allowed_revokeWhere]
      refine exists_congr fun g => and_congr_right fun _ => and_congr_right fun hp => ?_
      simp [hp, hin]
    · rw [AclEvidence.grants, if_pos ⟨hstatus, hprivate⟩, Granted, if_neg (fun h => hin h.2), ← stuck_allowAll hin,
        allowed_revokeWhere]
      refine exists_congr fun g => and_congr_right fun _ => and_congr_right fun hp => ?_
      simp [hp, hin]
  · rw [AclEvidence.grants, if_neg (fun h => hprivate h.2), if_pos (.inr hkind), Granted, if_neg (fun h => hprivate h.1),
      allowed_revokeWhere]
    simp [Stuck]

end Grants

/-- The rows of an article of the source that has a policy, after an observation of it. -/
theorem applyEvidence_observed {sourceId versionId : UUID} {ref : String} {e : AclEvidence} {row : ApplyRow} {article : Resource}
    {p : Policy} (h : w.applyEvidence sourceId versionId ref false e = .ok (row, w'))
    (harticle : w.ownArticle sourceId ref = some article) (hp : w.policies ref = some p) :
    w'.policies ref = some (p.observed e versionId (((w.observations ref).map (·.observationVersion)).getD 0 + 1) (w.policyEpoch + 1)) ∧
      w'.grants ref = e.grants w.clock (w.grants ref) ∧ w'.configuration = w.configuration := by
  simp only [Store.applyEvidence, bind_eq_ok, require_eq_ok, exists_const, Except.ok.injEq, Prod.mk.injEq] at h
  obtain ⟨-, -, -, ⟨published, u⟩, hsettle, -, rfl⟩ := h
  rcases settle_cases hsettle with ⟨hnone | ⟨-, hnone⟩, -, rfl⟩ | ⟨_, _, hdelete, -⟩ | ⟨_, q, -, -, hq, -, -, -, rfl⟩
  · simp [hnone] at harticle
  · simp [hnone] at hp
  · simp at hdelete
  · obtain rfl : q = p := by simpa using hq.symm.trans hp
    exact ⟨Function.update_self _ _ _, Function.update_self _ _ _, rfl⟩

section Readers

variable {ref : String} {actor : Actor}

theorem holdsGrant_iff : w.holdsGrant ref actor = true ↔ Allowed (w.grants ref) actor.principalRef := by
  simp [Store.holdsGrant, Allowed]

theorem inSomeGroup_congr (hconf : w'.configuration = w.configuration) (groups : List String) :
    w'.inSomeGroup groups actor = w.inSomeGroup groups actor := by
  simp only [Store.inSomeGroup, Store.inGroup, hconf]

/-- A member of a shared group is one of a group on either side. -/
theorem inSomeGroup_shared {a b : List String} (h : w.inSomeGroup (sharedGroups a b) actor = true) :
    w.inSomeGroup a actor = true ∧ w.inSomeGroup b actor = true := by
  simp only [Store.inSomeGroup, List.any_eq_true] at h ⊢
  obtain ⟨g, hg, hin⟩ := h
  rw [sharedGroups, mem_distinctAgg, List.mem_filter, decide_eq_true_eq] at hg
  exact ⟨⟨g, hg.1, hin⟩, g, hg.2, hin⟩

/-- The readers of the effective setting are readers of both, for the actors that `current`
    selects, exactly under this condition: where the effective setting is private, whoever
    then holds a grant is a verified principal, and a member of the groups that either side
    lists. -/
def KeepsToBoth (w : Store server) (ref : String) (localSetting : Setting) (e : AclEvidence) (current : Actor → Prop) : Prop :=
  ∀ localKind, localSetting.policyKind = some localKind → localKind = .private_ ∨ e.setting.policyKind = some .private_ →
    ∀ actor, current actor → Granted e (w.grants ref) actor.principalRef →
      (e.setting.policyKind = some .private_ → actor.principalRef ∈ e.principals) ∧
      (localKind = .groups → w.inSomeGroup localSetting.groupRefs actor = true) ∧
      (e.setting.policyKind = some .groups → w.inSomeGroup e.setting.groupRefs actor = true)

/-- Whoever holds a grant is admitted by a setting exactly if its groups admit it. -/
theorem admits_of_holdsGrant {setting : Setting} {kind : PolicyKind} (hkind : setting.policyKind = some kind)
    (hgrant : w.holdsGrant ref actor = true) :
    w.admits ref setting actor = true ↔ (kind = .groups → w.inSomeGroup setting.groupRefs actor = true) := by
  cases kind <;> simp [Store.admits, hkind, hgrant]

theorem sourceAdmits_iff {e : AclEvidence} {kind : PolicyKind} (hkind : e.setting.policyKind = some kind) :
    w.sourceAdmits ref e actor = true ↔ (kind = .private_ → actor.principalRef ∈ e.principals) ∧
      (kind = .groups → w.inSomeGroup e.setting.groupRefs actor = true) := by
  cases kind <;> simp [Store.sourceAdmits, Store.admits, hkind]

theorem intersect_of_private {localSetting observed : Setting} {localKind : PolicyKind}
    (hlocal : localSetting.policyKind = some localKind) (h : localKind = .private_ ∨ observed.policyKind = some .private_) :
    intersect localSetting observed = ⟨some .private_, []⟩ := by
  rcases h with rfl | h
  · simp [intersect, hlocal]
  · cases localKind <;> simp [intersect, hlocal, h]

/-- Without a private side, the intersection admits nobody whom a side does not. -/
theorem admits_intersect {localSetting : Setting} {e : AclEvidence} {localKind kind : PolicyKind}
    (hlocal : localSetting.policyKind = some localKind) (hkind : e.setting.policyKind = some kind)
    (hlocal' : localKind ≠ .private_) (hkind' : kind ≠ .private_)
    (h : w.admits ref (intersect localSetting e.setting) actor = true) :
    w.admits ref localSetting actor = true ∧ w.sourceAdmits ref e actor = true := by
  have hsource : w.sourceAdmits ref e actor = w.admits ref e.setting actor := by
    cases kind <;> simp_all [Store.sourceAdmits]
  rw [hsource]
  cases localKind with
  | private_ => exact absurd rfl hlocal'
  | organization =>
    have hi : intersect localSetting e.setting = e.setting := by cases kind <;> simp_all [intersect]
    rw [hi] at h
    exact ⟨by simp [Store.admits, hlocal], h⟩
  | groups =>
    cases kind with
    | private_ => exact absurd rfl hkind'
    | organization =>
      have hi : intersect localSetting e.setting = localSetting := by simp [intersect, hlocal, hkind]
      rw [hi] at h
      exact ⟨h, by simp [Store.admits, hkind]⟩
    | groups =>
      simp only [intersect, hlocal, hkind] at h
      split at h
      · simp [Store.admits, Setting.isolated] at h
      · have hshared := inSomeGroup_shared (by simpa [Store.admits] using h)
        exact ⟨by simpa [Store.admits, hlocal] using hshared.1, by simpa [Store.admits, hkind] using hshared.2⟩

theorem admits_intersect_iff {localSetting : Setting} {e : AclEvidence} {current : Actor → Prop}
    (hkind : e.setting.policyKind.isSome) (hconf : w'.configuration = w.configuration)
    (hgrants : ∀ principal, Allowed (w'.grants ref) principal ↔ Granted e (w.grants ref) principal) :
    (∀ actor, current actor → w'.admits ref (intersect localSetting e.setting) actor = true →
      w'.admits ref localSetting actor = true ∧ w'.sourceAdmits ref e actor = true) ↔
    KeepsToBoth w ref localSetting e current := by
  obtain ⟨kind, hkind⟩ := Option.isSome_iff_exists.mp hkind
  have hholds : ∀ actor, w'.holdsGrant ref actor = true ↔ Granted e (w.grants ref) actor.principalRef := by
    intro actor
    rw [holdsGrant_iff, hgrants]
  cases hlocal : localSetting.policyKind with
  | none => simp [KeepsToBoth, intersect, hlocal, Setting.isolated, Store.admits]
  | some localKind =>
    by_cases hprivate : localKind = .private_ ∨ e.setting.policyKind = some .private_
    · -- the effective setting is private: its readers are the holders of a grant
      rw [intersect_of_private hlocal hprivate]
      have hpoint : ∀ actor, w'.holdsGrant ref actor = true →
          (w'.admits ref localSetting actor = true ∧ w'.sourceAdmits ref e actor = true ↔
            (e.setting.policyKind = some .private_ → actor.principalRef ∈ e.principals) ∧
            (localKind = .groups → w.inSomeGroup localSetting.groupRefs actor = true) ∧
            (e.setting.policyKind = some .groups → w.inSomeGroup e.setting.groupRefs actor = true)) := by
        intro actor hholds
        rw [admits_of_holdsGrant hlocal hholds, sourceAdmits_iff hkind, inSomeGroup_congr hconf, inSomeGroup_congr hconf, hkind]
        simp only [Option.some.injEq]
        exact and_left_comm
      constructor
      · intro h localKind' hlocal' _ actor hcurrent hgranted
        obtain rfl : localKind = localKind' := by simpa [hlocal] using hlocal'
        have hhold := (hholds actor).mpr hgranted
        exact (hpoint actor hhold).mp (h actor hcurrent hhold)
      · intro h actor hcurrent hhold
        exact (hpoint actor hhold).mpr (h localKind hlocal hprivate actor hcurrent ((hholds actor).mp hhold))
    · -- no side is private: nothing is asked of the grants
      have hkind' : kind ≠ .private_ := fun heq => hprivate (.inr (heq ▸ hkind))
      refine iff_of_true (fun actor _ h => ?_) ?_
      · exact admits_intersect hlocal hkind (fun heq => hprivate (.inl heq)) hkind' h
      · intro localKind' hlocal' hprivate'
        obtain rfl : localKind = localKind' := by simpa [hlocal] using hlocal'
        exact absurd hprivate' hprivate

/-- The law of the oracle, for a fixed set of private readers. -/
theorem intersectPolicySettings_iff {α : Type} {privateReaders : Set α} {inGroup : String → α → Prop}
    {localSetting source : ArticleAccessPolicySetting} :
    (∀ i, intersectPolicySettings localSetting source = some i →
      i.readers privateReaders inGroup ⊆ localSetting.readers privateReaders inGroup ∧
      i.readers privateReaders inGroup ⊆ source.readers privateReaders inGroup) ↔
    (localSetting.kind = .groups → source.kind = .private_ → privateReaders ⊆ localSetting.readers privateReaders inGroup) ∧
    (localSetting.kind = .private_ → source.kind = .groups → privateReaders ⊆ source.readers privateReaders inGroup) := by
  obtain ⟨localKind, localGroups, hlocal⟩ := localSetting
  obtain ⟨kind, groups, hsource⟩ := source
  cases localKind with
  | private_ => cases kind <;> simp [intersectPolicySettings, ArticleAccessPolicySetting.readers]
  | organization => cases kind <;> simp [intersectPolicySettings, ArticleAccessPolicySetting.readers]
  | groups =>
    cases kind with
    | private_ => simp [intersectPolicySettings, ArticleAccessPolicySetting.readers]
    | organization => simp [intersectPolicySettings, ArticleAccessPolicySetting.readers]
    | groups =>
      refine iff_of_true ?_ (by simp)
      intro i hi
      simp only [intersectPolicySettings, reduceCtorEq, if_false] at hi
      split at hi
      · obtain rfl : _ = i := by simpa using hi
        constructor
        · rintro a ⟨g, hg, hin⟩
          exact ⟨g, (Finset.mem_inter.mp hg).1, hin⟩
        · rintro a ⟨g, hg, hin⟩
          exact ⟨g, (Finset.mem_inter.mp hg).2, hin⟩
      · simp at hi

/-- **The effective readers are readers of the local policy and of the source.** After an
    observation of an article with a policy this holds exactly under `KeepsToBoth`: a private
    side makes the article readable by whoever holds a grant, whatever groups the other side
    asks for. The oracle has the same gap for a fixed set of private readers. -/
theorem effective_visibility_iff (current : Actor → Prop) {r : ApplyRequest} {row : ApplyRow} {page : FeishuPage server}
    {e : AclEvidence} {article : Resource} {p : Policy} (happly : applyFeishuAclObservation w r = .ok (row, w'))
    (happlies : Applies w r page ref false e) (hstatus : e.status = .resolved)
    (harticle : w.ownArticle page.sourceId ref = some article) (hp : w.policies ref = some p) :
    ((∀ p', w'.policies ref = some p' → ∀ actor, current actor → w'.reads ref p' actor = true →
        w'.admits ref p.localSetting actor = true ∧ w'.sourceAdmits ref e actor = true) ↔
      KeepsToBoth w ref p.localSetting e current) ∧
    ∀ (α : Type) (privateReaders : Set α) (inGroup : String → α → Prop) (localSetting source : ArticleAccessPolicySetting),
      (∀ i, intersectPolicySettings localSetting source = some i →
        i.readers privateReaders inGroup ⊆ localSetting.readers privateReaders inGroup ∧
        i.readers privateReaders inGroup ⊆ source.readers privateReaders inGroup) ↔
      (localSetting.kind = .groups → source.kind = .private_ → privateReaders ⊆ localSetting.readers privateReaders inGroup) ∧
      (localSetting.kind = .private_ → source.kind = .groups → privateReaders ⊆ source.readers privateReaders inGroup) := by
  refine ⟨?_, fun _ _ _ _ _ => intersectPolicySettings_iff⟩
  obtain ⟨page', ref', delete', e', happlies', hevidence⟩ := apply_ok happly
  obtain ⟨rfl, rfl, rfl, rfl⟩ := happlies'.unique happlies
  obtain ⟨hp', hgrants, hconf⟩ := applyEvidence_observed hevidence harticle hp
  have hkind : e'.setting.policyKind.isSome := by
    have hchecks := (applyEvidence_applied hevidence).checks
    simp only [Observation.checks, AclEvidence.observation, hstatus, Bool.false_eq_true, if_false, Bool.and_eq_true] at hchecks
    exact hchecks.1.1.1.1
  rw [← admits_intersect_iff hkind hconf fun principal => by rw [hgrants]; exact allowed_grants hstatus hkind]
  have hreads : ∀ q, w'.policies ref' = some q → ∀ actor, w'.reads ref' q actor = w'.admits ref' (intersect p.localSetting e'.setting) actor := by
    intro q hq actor
    obtain rfl : _ = q := Option.some.inj (hp'.symm.trans hq)
    simp only [Store.reads, Policy.observed, hstatus, if_true]
    cases hkind : (intersect p.localSetting e'.setting).policyKind <;> simp [Store.admits, hkind]
  constructor
  · intro h actor hcurrent hadmits
    exact h _ hp' actor hcurrent ((hreads _ hp' actor).trans hadmits)
  · intro h q hq actor hcurrent hread
    exact h actor hcurrent ((hreads q hq actor).symm.trans hread)

end Readers

namespace FeishuInstance

def bob : Actor := ⟨"bob", id 30, 1⟩

/-- What the set-up left of the second article. -/
theorem store_second : store.ownArticle (id 20) "doc-2" = some ⟨uuidText (id 20), false⟩ ∧
    (store.policies "doc-2").map (·.localSetting) = some ⟨some .groups, ["staff"]⟩ ∧ store.grants "doc-2" = [] := by
  decide +kernel

theorem store_article2 : store.ownArticle (id 20) "doc-2" = some ⟨uuidText (id 20), false⟩ := store_second.1

theorem store_policy2 : ∃ p, store.policies "doc-2" = some p ∧ p.localSetting = ⟨some .groups, ["staff"]⟩ := by
  obtain ⟨p, hp, hlocal⟩ := Option.map_eq_some_iff.mp store_second.2.1
  exact ⟨p, hp, hlocal⟩

/-- A document that its source shares with Bob alone is kept to the staff here. Bob is not of
    the staff, and reads it. -/
theorem bob_reads_beyond_local : ∃ row w' p p', applyFeishuAclObservation store (request "doc-2") = .ok (row, w') ∧
    Applies store (request "doc-2") page "doc-2" false privateEvidence ∧ privateEvidence.status = .resolved ∧
    store.ownArticle page.sourceId "doc-2" = some ⟨uuidText (id 20), false⟩ ∧ store.policies "doc-2" = some p ∧
    w'.policies "doc-2" = some p' ∧ w'.reads "doc-2" p' bob = true ∧ w'.admits "doc-2" p.localSetting bob = false := by
  obtain ⟨row, w', happly, hevidence⟩ := store_apply store_applies_private (by decide +kernel)
  obtain ⟨p, hp, hlocal⟩ := store_policy2
  obtain ⟨hp', hgrants, hconf⟩ := applyEvidence_observed hevidence store_article2 hp
  refine ⟨row, w', p, _, happly, store_applies_private, rfl, store_article2, hp, hp', ?_, ?_⟩
  · have hstore : store.grants "doc-2" = [] := by decide +kernel
    rw [hstore] at hgrants
    simp only [Store.reads, Policy.observed, privateEvidence, if_true, hlocal, intersect, Option.isSome_some, Bool.true_and,
      Store.admits, Store.holdsGrant, hgrants]
    decide
  · rw [hlocal]
    simp only [Store.admits, Store.inSomeGroup, Store.inGroup, hconf]
    decide +kernel

/-- The condition at that document. -/
theorem private_document_condition : ∃ row w' p, applyFeishuAclObservation store (request "doc-2") = .ok (row, w') ∧
    store.policies "doc-2" = some p ∧
    ((∀ p', w'.policies "doc-2" = some p' → ∀ actor, True → w'.reads "doc-2" p' actor = true →
        w'.admits "doc-2" p.localSetting actor = true ∧ w'.sourceAdmits "doc-2" privateEvidence actor = true) ↔
      KeepsToBoth store "doc-2" p.localSetting privateEvidence fun _ => True) := by
  obtain ⟨row, w', happly, -⟩ := store_apply store_applies_private (by decide +kernel)
  obtain ⟨p, hp, -⟩ := store_policy2
  exact ⟨row, w', p, happly, hp, (effective_visibility_iff (fun _ => True) happly store_applies_private rfl store_article2 hp).1⟩

end FeishuInstance

end ContextEngine.Control.ArticlePolicy
