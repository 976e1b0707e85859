/-
  ContextEngine.Control.FailClosed — when applying an accepted observation fails closed.

  Proved:
  (1) The verifier raises exactly if the requested groups reach a node whose lists cannot be
      extracted (`verify_ok_iff`), and resolves an artifact without a kind exactly if that names
      none and claims what the mapping gives (`verify_unnamed_iff`).
  (2) An application returns a row, and leaves published only what was verified, exactly for
      evidence that the function can digest (`fails_closed_iff`). Evidence that is no JSON text
      leaves the earlier grant published (`FeishuInstance.undecodable_keeps_published`), and so
      does a quoted graph whose cast raises what is no `data_exception`.
-/

import ContextEngine.Control.ArticleReaders

namespace ContextEngine.Control

open ContextEngine.Machine ContextEngine.Python ContextEngine.Postgres

/-! ## Gathering -/

section Gather

variable {α β : Type} {g : α → Option (List β)} {xs : List α}

theorem gather_isSome : ((xs.mapM g).map List.flatten).isSome ↔ ∀ x ∈ xs, (g x).isSome := by
  induction xs with
  | nil => simp
  | cons x xs ih =>
    rw [Option.isSome_map] at ih
    rw [Option.isSome_map, List.forall_mem_cons, ← ih, List.mapM_cons]
    cases g x with
    | none => simp
    | some ys => cases xs.mapM g <;> simp

theorem mem_gather {ys : List β} (h : (xs.mapM g).map List.flatten = some ys) {y : β} :
    y ∈ ys ↔ ∃ x ∈ xs, ∃ es, g x = some es ∧ y ∈ es := by
  induction xs generalizing ys with
  | nil =>
    obtain rfl : [] = ys := by simpa using h
    simp
  | cons x xs ih =>
    simp only [List.mapM_cons, Option.pure_def, Option.bind_eq_bind, Option.map_eq_some_iff, Option.bind_eq_some_iff,
      Option.some.injEq] at h
    obtain ⟨_, ⟨es, hx, rest, hrest, rfl⟩, rfl⟩ := h
    rw [List.flatten_cons, List.mem_append, ih (Option.map_eq_some_iff.mpr ⟨rest, hrest, rfl⟩)]
    simp [hx]

end Gather

section Verifier

variable (server : Server)

/-! ## What the queries reach -/

variable {nodes : List Node} {requested : List (Option String)}

theorem reaches_groupTexts {ref : Option String} (h : Reaches (childrenOf server nodes) requested ref) :
    ref ∈ groupTexts server nodes requested := by
  refine h.induction (fun a ha => List.mem_append_left _ ha) fun a b _ hab => ?_
  obtain ⟨bs, hbs, hb⟩ := hab
  obtain ⟨n, hn, es, hes, hbe⟩ := (mem_gather hbs).mp hb
  refine List.mem_append_right _ (List.mem_flatMap.mpr ⟨n, (List.mem_filter.mp hn).1, ?_⟩)
  rw [hes]
  exact hbe

theorem reachable_isSome_iff : (reachable server nodes requested).isSome ↔
    ∀ ref, Reaches (childrenOf server nodes) requested ref → (childrenOf server nodes ref).isSome := by
  rw [← not_iff_not, Option.not_isSome_iff_eq_none, reachable,
    close_eq_none_iff (fun _ h => reaches_groupTexts server h) (Nat.le_refl _)]
  simp

theorem mem_reachable {groups : List (Option String)} (h : reachable server nodes requested = some groups) (ref : Option String) :
    ref ∈ groups ↔ Reaches (childrenOf server nodes) requested ref :=
  mem_close (fun _ h => reaches_groupTexts server h) (Nat.le_refl _) h ref

/-- The first query never raises: it reads only nodes whose lists are arrays. -/
theorem reachable_shaped (graph : Jsonb) : (reachable server (shapedNodes server graph) requested).isSome := by
  refine (reachable_isSome_iff server).mpr fun ref _ => gather_isSome.mpr fun n hn => ?_
  have hshaped := (List.mem_filter.mp (List.mem_filter.mp hn).1).2
  rw [Bool.and_eq_true] at hshaped
  cases hlist : n.childGroupRefs with
  | none => rfl
  | some v => cases v <;> simp_all [Jsonb.isA, Jsonb.type, Server.elementsText]

variable (mapping : SubjectMapping) (ownedGroup : String → Bool) (f : Flattening)

/-- A group that the last two queries reach. -/
def GroupReached : Option String → Prop := Reaches (childrenOf server (graphNodes server f.graph)) f.requested

/-- The lists of every node that is reached can be extracted: each is an array, or not there. -/
def Extractable : Prop := ∀ ref, GroupReached server f ref → ∀ n ∈ nodesOf (graphNodes server f.graph) ref,
  (server.elementsText n.childGroupRefs).isSome ∧ (server.elementsText n.identityRefs).isSome

/-- An identity that the document names, or a group that is reached. -/
def IdentityNamed (identity : Option String) : Prop :=
  identity ∈ f.direct ∨ ∃ ref, GroupReached server f ref ∧ ∃ n ∈ nodesOf (graphNodes server f.graph) ref,
    ∃ es, server.elementsText n.identityRefs = some es ∧ identity ∈ es

/-- No group is unresolved, and the flattening claims, each once, the groups and principals
    that the mapping gives for what it names. -/
structure Grounded : Prop where
  resolved : ∀ ref, Reaches (childrenOf server (shapedNodes server f.graph)) f.requested ref →
    unresolves mapping (shapedNodes server f.graph) ref = false
  groups_nodup : f.claimedGroups.Nodup
  groups : ∀ claim, claim ∈ f.claimedGroups ↔ ∃ g, (∃ ref, GroupReached server f ref ∧ ref.bind (mapping .group) = some g) ∧
    ownedGroup g = true ∧ claim = some g
  principals_nodup : f.claimedPrincipals.Nodup
  principals : ∀ claim, claim ∈ f.claimedPrincipals ↔
    ∃ p, (∃ identity, IdentityNamed server f identity ∧ identity.bind (mapping .identity) = some p) ∧ claim = some p

variable {server mapping ownedGroup f}

theorem computedPrincipals_isSome_iff : (computedPrincipals server mapping f).isSome ↔ Extractable server f := by
  have hsplit : (computedPrincipals server mapping f).isSome ↔ ∃ groups, reachable server (graphNodes server f.graph) f.requested =
      some groups ∧ ((groups.mapM (identitiesOf server (graphNodes server f.graph))).map List.flatten).isSome := by
    simp only [computedPrincipals, Option.bind_eq_bind]
    cases reachable server (graphNodes server f.graph) f.requested with
    | none => simp
    | some groups =>
      simp only [Option.bind_some, Option.some.injEq, exists_eq_left']
      cases groups.mapM (identitiesOf server (graphNodes server f.graph)) with
      | none => rfl
      | some identities => simp
  rw [hsplit]
  constructor
  · rintro ⟨groups, hgroups, hidentities⟩ ref href n hn
    have hchildren := (reachable_isSome_iff server).mp (Option.isSome_iff_exists.mpr ⟨_, hgroups⟩) ref href
    have hids := gather_isSome.mp hidentities ref ((mem_reachable server hgroups ref).mpr href)
    exact ⟨gather_isSome.mp hchildren n hn, gather_isSome.mp hids n hn⟩
  · intro h
    obtain ⟨groups, hgroups⟩ := Option.isSome_iff_exists.mp ((reachable_isSome_iff server).mpr fun ref href =>
      gather_isSome.mpr fun n hn => (h ref href n hn).1)
    refine ⟨groups, hgroups, gather_isSome.mpr fun ref href => gather_isSome.mpr fun n hn => ?_⟩
    exact (h ref ((mem_reachable server hgroups ref).mp href) n hn).2

theorem computedGroups_isSome (h : Extractable server f) : (computedGroups server mapping ownedGroup f).isSome := by
  obtain ⟨groups, hgroups⟩ := Option.isSome_iff_exists.mp ((reachable_isSome_iff server).mpr fun ref href =>
    gather_isSome.mpr fun n hn => (h ref href n hn).1)
  simp [computedGroups, hgroups]

/-- What the second query aggregates. -/
theorem computedPrincipals_eq {principals : List String} (h : computedPrincipals server mapping f = some principals) :
    ∃ values, principals = distinctAgg values ∧
      ∀ p, p ∈ values ↔ ∃ identity, IdentityNamed server f identity ∧ identity.bind (mapping .identity) = some p := by
  simp only [computedPrincipals, Option.bind_eq_bind, Option.bind_eq_some_iff, Option.some.injEq] at h
  obtain ⟨groups, hgroups, identities, hidentities, rfl⟩ := h
  refine ⟨_, rfl, fun p => ?_⟩
  have hflat : (groups.mapM (identitiesOf server (graphNodes server f.graph))).map List.flatten = some identities.flatten := by
    rw [hidentities]
    rfl
  rw [List.mem_filterMap]
  refine exists_congr fun identity => and_congr_left fun _ => ?_
  rw [List.mem_append, mem_gather hflat]
  refine or_congr_right (exists_congr fun ref => ?_)
  rw [mem_reachable server hgroups]
  refine and_congr_right fun _ => ?_
  constructor
  · rintro ⟨es, hes, hmem⟩
    exact (mem_gather hes).mp hmem
  · rintro ⟨n, hn, es, hes, hmem⟩
    have hsome : (identitiesOf server (graphNodes server f.graph) ref).isSome := by
      obtain ⟨ids, -, hids⟩ := (mem_mapM hidentities).1 ref ((mem_reachable server hgroups ref).mpr ‹_›)
      rw [hids]
      rfl
    obtain ⟨all, hall⟩ := Option.isSome_iff_exists.mp hsome
    exact ⟨all, hall, (mem_gather hall).mpr ⟨n, hn, es, hes, hmem⟩⟩

/-- What the third query aggregates. -/
theorem computedGroups_eq {computed : List String} (h : computedGroups server mapping ownedGroup f = some computed) :
    ∃ values, computed = distinctAgg values ∧
      ∀ g, g ∈ values ↔ (∃ ref, GroupReached server f ref ∧ ref.bind (mapping .group) = some g) ∧ ownedGroup g = true := by
  simp only [computedGroups, Option.bind_eq_bind, Option.bind_eq_some_iff, Option.some.injEq] at h
  obtain ⟨groups, hgroups, rfl⟩ := h
  refine ⟨_, rfl, fun g => ?_⟩
  rw [List.mem_filter, List.mem_filterMap]
  refine and_congr_left fun _ => exists_congr fun ref => ?_
  rw [mem_reachable server hgroups]
  rfl

/-! ## The verdict -/

variable {artifact : Jsonb} {v : Verified}

theorem verify_eq_ok_iff (hf : flatteningOf server artifact = .ok f) : verifyAclArtifact server mapping ownedGroup artifact = .ok v ↔
    ∃ groups principals computed, reachable server (shapedNodes server f.graph) f.requested = some groups ∧
      computedPrincipals server mapping f = some principals ∧ computedGroups server mapping ownedGroup f = some computed ∧
      verdict server artifact (groups.any (unresolves mapping (shapedNodes server f.graph))) (orderedAgg f.claimedGroups)
        (orderedAgg f.claimedPrincipals) computed principals = v := by
  simp only [verifyAclArtifact, hf, bind_eq_ok, found_eq_ok, Except.ok.injEq]
  constructor
  · rintro ⟨_, rfl, groups, hgroups, principals, hprincipals, computed, hcomputed, hv⟩
    exact ⟨groups, principals, computed, hgroups, hprincipals, hcomputed, hv⟩
  · rintro ⟨groups, principals, computed, hgroups, hprincipals, hcomputed, hv⟩
    exact ⟨_, rfl, groups, hgroups, principals, hprincipals, computed, hcomputed, hv⟩

/-- **The verifier returns a row exactly if the lists of every node that is reached can be
    extracted.** Only its first query looks at the shape of a node. -/
theorem verify_ok_iff (hf : flatteningOf server artifact = .ok f) :
    (∃ v, verifyAclArtifact server mapping ownedGroup artifact = .ok v) ↔ Extractable server f := by
  constructor
  · rintro ⟨v, hv⟩
    obtain ⟨_, principals, _, -, hprincipals, -⟩ := (verify_eq_ok_iff hf).mp hv
    exact computedPrincipals_isSome_iff.mp (Option.isSome_iff_exists.mpr ⟨principals, hprincipals⟩)
  · intro h
    have hgroups : (reachable server (shapedNodes server f.graph) f.requested).isSome := reachable_shaped server f.graph
    obtain ⟨groups, hgroups⟩ := Option.isSome_iff_exists.mp hgroups
    have hprincipals : (computedPrincipals server mapping f).isSome := computedPrincipals_isSome_iff.mpr h
    have hcomputed : (computedGroups server mapping ownedGroup f).isSome := computedGroups_isSome h
    obtain ⟨principals, hprincipals⟩ := Option.isSome_iff_exists.mp hprincipals
    obtain ⟨computed, hcomputed⟩ := Option.isSome_iff_exists.mp hcomputed
    exact ⟨_, (verify_eq_ok_iff hf).mpr ⟨groups, principals, computed, hgroups, hprincipals, hcomputed, rfl⟩⟩

/-- The verdict's three rows. -/
theorem verdict_cases (server : Server) (artifact : Jsonb) (unresolved : Bool) (claimedGroups claimedPrincipals : List (Option String)) (computed principals : List String) :
    verdict server artifact unresolved claimedGroups claimedPrincipals computed principals = .failed ∨
    verdict server artifact unresolved claimedGroups claimedPrincipals computed principals = .unresolvedGroup ∨
    (server.text (artifact.get "status")).all (· = "resolved") = true ∧ unresolved = false ∧
      claimedGroups = computed.map some ∧ claimedPrincipals = principals.map some ∧
      (∀ k, server.text (artifact.get "policy_kind") = some k → (PolicyKind.ofText k).isSome ∧ (k = "groups" ↔ computed ≠ [])) ∧
      verdict server artifact unresolved claimedGroups claimedPrincipals computed principals =
        ⟨(server.text (artifact.get "status")).map fun _ => .resolved, (server.text (artifact.get "policy_kind")).bind PolicyKind.ofText,
          computed, principals⟩ := by
  unfold verdict
  dsimp only
  split
  case isTrue => exact .inl rfl
  case isFalse hfailed =>
    split
    case isTrue => exact .inr (.inl rfl)
    case isFalse hunresolved =>
      split
      case isTrue => exact .inr (.inl rfl)
      case isFalse hkind =>
        refine .inr (.inr ?_)
        simp only [Bool.or_eq_true, not_or, Bool.not_eq_true, bne_eq_false_iff_eq] at hunresolved hkind
        obtain ⟨⟨⟨⟨hstatus, hu⟩, hg⟩, hp⟩, hs⟩ := hunresolved
        refine ⟨?_, hu, hg, hp, ?_, rfl⟩
        · cases hstat : server.text (artifact.get "status") with
          | none => rfl
          | some s =>
            rw [hstat] at hstatus hs
            simp at hstatus hs
            simp
            grind
        · intro k hk
          rw [hk] at hkind
          simp at hkind
          grind

theorem verdict_unnamed_iff {unresolved : Bool} {claimedGroups claimedPrincipals : List (Option String)} {computed principals : List String}
    (hv : verdict server artifact unresolved claimedGroups claimedPrincipals computed principals = v) :
    v.status = some .resolved ∧ v.policyKind = none ↔
      server.text (artifact.get "status") = some "resolved" ∧ server.text (artifact.get "policy_kind") = none ∧ unresolved = false ∧
        claimedGroups = computed.map some ∧ claimedPrincipals = principals.map some := by
  constructor
  · rintro ⟨hstatus, hkind⟩
    rcases verdict_cases server artifact unresolved claimedGroups claimedPrincipals computed principals with
      hrow | hrow | ⟨hs, hu, hg, hp, hk, hrow⟩
    · rw [← hv, hrow] at hstatus
      cases hstatus
    · rw [← hv, hrow] at hstatus
      cases hstatus
    · rw [← hv, hrow] at hstatus hkind
      cases hstat : server.text (artifact.get "status") with
      | none => simp [hstat] at hstatus
      | some s =>
        have hs : s = "resolved" := by simpa [hstat] using hs
        cases hkin : server.text (artifact.get "policy_kind") with
        | none => exact ⟨by rw [hs], rfl, hu, hg, hp⟩
        | some k =>
          have hsome := (hk k hkin).1
          simp only [hkin, Option.bind_some] at hkind
          rw [hkind] at hsome
          cases hsome
  · rintro ⟨hs, hk, hu, hg, hp⟩
    rw [← hv]
    simp [verdict, hs, hk, hu, hg, hp]

/-- **The verifier resolves an artifact without a kind exactly if that names none and its
    flattening claims what the mapping gives.** -/
theorem verify_unnamed_iff (hf : flatteningOf server artifact = .ok f)
    (hv : verifyAclArtifact server mapping ownedGroup artifact = .ok v) :
    v.status = some .resolved ∧ v.policyKind = none ↔
      server.text (artifact.get "status") = some "resolved" ∧ server.text (artifact.get "policy_kind") = none ∧
        Grounded server mapping ownedGroup f := by
  obtain ⟨groups, principals, computed, hgroups, hprincipals, hcomputed, hverdict⟩ := (verify_eq_ok_iff hf).mp hv
  obtain ⟨groupValues, rfl, hgroupValues⟩ := computedGroups_eq hcomputed
  obtain ⟨values, rfl, hvalues⟩ := computedPrincipals_eq hprincipals
  rw [verdict_unnamed_iff hverdict, orderedAgg_eq_iff, orderedAgg_eq_iff, List.any_eq_false]
  refine and_congr_right fun _ => and_congr_right fun _ => ?_
  constructor
  · rintro ⟨hresolved, ⟨hgnodup, hg⟩, hpnodup, hp⟩
    refine ⟨fun ref href => ?_, hgnodup, fun claim => ?_, hpnodup, fun claim => ?_⟩
    · simpa using hresolved ref ((mem_reachable server hgroups ref).mpr href)
    · rw [hg]
      exact exists_congr fun g => by rw [hgroupValues, and_assoc]
    · rw [hp]
      exact exists_congr fun q => by rw [hvalues]
  · rintro ⟨hresolved, hgnodup, hg, hpnodup, hp⟩
    refine ⟨fun ref href => ?_, ⟨hgnodup, fun claim => ?_⟩, hpnodup, fun claim => ?_⟩
    · simpa using hresolved ref ((mem_reachable server hgroups ref).mp href)
    · rw [hg]
      exact exists_congr fun g => by rw [hgroupValues, and_assoc]
    · rw [hp]
      exact exists_congr fun q => by rw [hvalues]

theorem verify_flattening (hv : verifyAclArtifact server mapping ownedGroup artifact = .ok v) :
    ∃ f, flatteningOf server artifact = .ok f := by
  simp only [verifyAclArtifact, bind_eq_ok, found_eq_ok] at hv
  obtain ⟨f, hf, -⟩ := hv
  exact ⟨f, hf⟩

/-- The shape checks raise exactly if the cast of the quoted graph raises another error than a
    `data_exception`. -/
theorem flattening_raised_iff : flatteningOf server artifact = .error .raised ↔
    ∃ flattening graphText, quotedGraph server artifact = some (flattening, graphText) ∧
      server.castJsonb (encode graphText) = .error .other := by
  unfold flatteningOf
  cases hquoted : quotedGraph server artifact with
  | none => simp [found, bind, Except.bind]
  | some quoted =>
    obtain ⟨flattening, graphText⟩ := quoted
    have hquotes : (∃ flattening' graphText', some (flattening, graphText) = some (flattening', graphText') ∧
        server.castJsonb (encode graphText') = .error .other) ↔ handled (server.castJsonb (encode graphText)) = .error .raised := by
      rw [handled_eq_raised]
      simp
    rw [hquotes]
    simp only [found, bind, Except.bind]
    cases handled (server.castJsonb (encode graphText)) with
    | error exit => simp
    | ok graph => cases hshaped : shapedFlattening server flattening graphText graph <;> simp [hshaped]

/-- A row of the verifier isolates, or comes from what the mapping gives. -/
theorem verify_cases (hv : verifyAclArtifact server mapping ownedGroup artifact = .ok v) : v = .failed ∨ v = .unresolvedGroup ∨
    (∀ s, v.status = some s → s = .resolved) ∧ (∀ k, v.policyKind = some k → (k = .groups ↔ v.groups ≠ [])) ∧
      ∀ p ∈ v.principals, ∃ identity, mapping .identity identity = some p := by
  obtain ⟨f, hf⟩ := verify_flattening hv
  obtain ⟨groups, principals, computed, -, hprincipals, -, rfl⟩ := (verify_eq_ok_iff hf).mp hv
  rcases verdict_cases server artifact (groups.any (unresolves mapping (shapedNodes server f.graph)))
    (orderedAgg f.claimedGroups) (orderedAgg f.claimedPrincipals) computed principals with hrow | hrow | ⟨-, -, -, -, hkind, hrow⟩
  · exact .inl hrow
  · exact .inr (.inl hrow)
  · rw [hrow]
    refine .inr (.inr ⟨fun s hs => ?_, fun k hk => ?_, fun q hq => ?_⟩)
    · obtain ⟨_, -, rfl⟩ := Option.map_eq_some_iff.mp hs
      rfl
    · obtain ⟨text, htext, hof⟩ := Option.bind_eq_some_iff.mp hk
      rw [← (hkind text htext).2]
      unfold PolicyKind.ofText at hof
      split at hof
      case isTrue h => cases hof; simp [h]
      case isFalse =>
        split at hof
        case isTrue h => cases hof; simp [h]
        case isFalse =>
          split at hof
          case isTrue h => cases hof; simp [h]
          case isFalse => cases hof
    · obtain ⟨values, rfl, hvalues⟩ := computedPrincipals_eq hprincipals
      obtain ⟨identity, -, hmap⟩ := (hvalues q).mp (mem_distinctAgg.mp hq)
      obtain ⟨i, -, hi⟩ := Option.bind_eq_some_iff.mp hmap
      exact ⟨i, hi⟩

/-- Past the shape checks the verifier leaves only by raising. -/
theorem verify_error {exit : Exit} (hf : flatteningOf server artifact = .ok f)
    (hv : verifyAclArtifact server mapping ownedGroup artifact = .error exit) : exit = .raised := by
  simp only [verifyAclArtifact, hf, found, bind, Except.bind] at hv
  cases hgroups : reachable server (shapedNodes server f.graph) f.requested with
  | none => simp_all
  | some groups =>
    cases hprincipals : computedPrincipals server mapping f with
    | none => simp_all
    | some principals => cases hcomputed : computedGroups server mapping ownedGroup f <;> simp_all

end Verifier

namespace ArticlePolicy

open ContextEngine.Runtime ContextEngine.Supply

variable {server : Server} {w w' : Store server}

/-! ## Evidence -/

/-- The bytes that an access observation carries. -/
def evidencePayload (server : Server) (acl : Option Jsonb) : Option (List UInt8) :=
  (server.text (acl.bind (·.get "evidence_payload"))).bind server.decodeBase64

/-- When an access observation was made. -/
def observedTime (server : Server) (acl : Option Jsonb) : Option Timestamp :=
  (server.text (acl.bind (·.get "observed_at"))).bind server.timestamptz

/-- The source was observed at that time already, or later. -/
def Store.observedSince (w : Store server) (ref : String) (t : Timestamp) : Bool :=
  (w.observations ref).any fun o => decide (t ≤ o.observedAt)

/-- The artifact says that it is resolved, names no kind, and claims what the mapping gives. -/
def Unnamed (server : Server) (mapping : SubjectMapping) (ownedGroup : String → Bool) (artifact : Jsonb) (f : Flattening) : Prop :=
  server.text (artifact.get "status") = some "resolved" ∧ server.text (artifact.get "policy_kind") = none ∧
    Grounded server mapping ownedGroup f

/-- The function can digest an artifact: the cast of the graph that it quotes fails with no
    error but a `data_exception`; and where its flattening is of the right shape, all that it
    reaches can be extracted, and it does not resolve to no kind, unless it is stale anyway. -/
structure DigestibleArtifact (w : Store server) (sourceId : UUID) (ref : String) (acl : Option Jsonb) (artifact : Jsonb) :
    Prop where
  graph : ∀ flattening graphText, quotedGraph server artifact = some (flattening, graphText) →
    server.castJsonb (encode graphText) ≠ .error .other
  extractable : ∀ f, flatteningOf server artifact = .ok f → Extractable server f
  named : ∀ f, flatteningOf server artifact = .ok f →
    Unnamed server (w.configuration.mapping sourceId) w.configuration.ownedGroup artifact f →
      ∃ t, observedTime server acl = some t ∧ w.observedSince ref t = true

/-- The function can digest the evidence: it is mirrored and is JSON, and so can it the artifact
    if that is the document's own. -/
structure Digestible (w : Store server) (sourceId : UUID) (ref : String) (acl : Option Jsonb) : Prop where
  mirrored : evidenceClass (server.text (acl.bind (·.get "evidence_class"))) = some .mirrored
  json : ∃ payload artifact, evidencePayload server acl = some payload ∧ server.castJsonb payload = .ok artifact ∧
    (server.text (artifact.get "document_ref") = some ref → DigestibleArtifact w sourceId ref acl artifact)

/-- A document that was accepted for an article of the source, whose counters have not come to
    their last values. The rows satisfy the check constraints of their tables; acceptance is in
    the past, and the number that it found as the epoch is read back from its text. -/
structure Presented (w : Store server) (r : ApplyRequest) (page : FeishuPage server) (ref : String) (acl : Option Jsonb)
    (p : Policy) : Prop where
  control : r.session.user = .control
  session : r.session.organizationId = r.organizationId ∧ r.organizationId = some w.organizationId
  documentRef : r.documentRef = some ref
  deleteObservation : r.deleteObservation = some false
  selected : w.feishuPage r = some page
  envelope : ∃ document envelope, server.parseJsonb page.payload = some document ∧
    envelopeOf server document ref false = some envelope ∧ envelope.get "acl_observation" = acl
  accepted : page.acceptedAt ≤ w.clock
  epoch : ∀ n, acl.bind (·.get "policy_epoch") = some (.number n) →
    server.bigint (server.valueText (.number n)) = some n.unscaled
  article : (w.ownArticle page.sourceId ref).isSome
  policy : w.policies ref = some p
  policy_checks : p.checks = true
  grants_checks : ∀ g ∈ w.grants ref, trimsEmpty g.principalRef = false
  mapping_checks : ∀ identity principal, w.configuration.mapping page.sourceId .identity identity = some principal →
    trimsEmpty principal = false
  version_lt : ((w.observations ref).map (·.observationVersion)).getD 0 < MAX_BIGINT
  policyVersion_lt : p.policyVersion < MAX_BIGINT
  policyEpoch_lt : w.policyEpoch < MAX_BIGINT

/-- The application returned a row, and the article is published then only if the verifier
    resolved the artifact with a kind. -/
def FailsClosed (w : Store server) (r : ApplyRequest) (page : FeishuPage server) (ref : String) (acl : Option Jsonb) : Prop :=
  ∃ row w', applyFeishuAclObservation w r = .ok (row, w') ∧
    ∀ p', w'.policies ref = some p' → p'.published = true →
      ∃ payload artifact v, evidencePayload server acl = some payload ∧ server.castJsonb payload = .ok artifact ∧
        verifyAclArtifact server (w.configuration.mapping page.sourceId) w.configuration.ownedGroup artifact = .ok v ∧
        v.status = some .resolved ∧ v.policyKind.isSome

/-! ## What an artifact is worth -/

section Worth

variable {sourceId : UUID} {ref : String} {artifact : Jsonb} {v : Verified}

/-- What holds of every worth: it is resolved as the verifier resolved it, and otherwise isolates. -/
theorem artifactEvidence_cases (h : artifactEvidence w sourceId ref artifact = .ok v) :
    v = .failed ∨ v = .unresolvedGroup ∨
    server.text (artifact.get "document_ref") = some ref ∧ v.status = some .resolved ∧
      verifyAclArtifact server (w.configuration.mapping sourceId) w.configuration.ownedGroup artifact = .ok v := by
  unfold artifactEvidence at h
  split at h
  case isTrue =>
    cases h
    exact .inr (.inl rfl)
  case isFalse href =>
    split at h
    case h_1 => exact .inr (.inl (Except.ok.inj h).symm)
    case h_2 => cases h
    case h_3 v' hv' =>
      by_cases hnone : v'.status.isNone = true
      · rw [if_pos hnone] at h
        exact .inr (.inl (Except.ok.inj h).symm)
      · rw [if_neg hnone] at h
        obtain rfl : v' = v := Except.ok.inj h
        rcases verify_cases hv' with rfl | rfl | ⟨hstatus, -⟩
        · exact .inl rfl
        · exact .inr (.inl rfl)
        · refine .inr (.inr ⟨not_not.mp href, ?_, hv'⟩)
          cases hs : v'.status with
          | none => simp [hs] at hnone
          | some s => rw [hstatus s hs]

/-- An artifact has a worth exactly if it is another document's, or its shape checks do not raise
    and it is misshapen or can be extracted. -/
theorem artifactEvidence_ok_iff : (∃ v, artifactEvidence w sourceId ref artifact = .ok v) ↔
    (server.text (artifact.get "document_ref") = some ref → flatteningOf server artifact ≠ .error .raised ∧
      ∀ f, flatteningOf server artifact = .ok f → Extractable server f) := by
  unfold artifactEvidence
  by_cases href : server.text (artifact.get "document_ref") = some ref
  · rw [if_neg (not_not.mpr href)]
    cases hf : flatteningOf server artifact with
    | error exit =>
      have hv : verifyAclArtifact server (w.configuration.mapping sourceId) w.configuration.ownedGroup artifact = .error exit := by
        simp [verifyAclArtifact, hf, bind, Except.bind]
      cases exit with
      | noRow => simp [hv]
      | raised => simp [hv, href]
    | ok f =>
      have hiff : (∃ v, verifyAclArtifact server (w.configuration.mapping sourceId) w.configuration.ownedGroup artifact = .ok v) ↔
          Extractable server f := verify_ok_iff hf
      have hexit : ∀ exit, verifyAclArtifact server (w.configuration.mapping sourceId) w.configuration.ownedGroup artifact =
          .error exit → exit = .raised := fun exit hexit => verify_error hf hexit
      cases hv : verifyAclArtifact server (w.configuration.mapping sourceId) w.configuration.ownedGroup artifact with
      | ok v =>
        have : Extractable server f := hiff.mp ⟨v, hv⟩
        simp [this, href]
      | error exit =>
        obtain rfl := hexit exit hv
        have : ¬Extractable server f := fun h => by simpa [hv] using hiff.mpr h
        simp [this, href]
  · simp [href]

theorem artifactEvidence_of_verify {s : ObservationStatus} (href : server.text (artifact.get "document_ref") = some ref)
    (hv : verifyAclArtifact server (w.configuration.mapping sourceId) w.configuration.ownedGroup artifact = .ok v)
    (hs : v.status = some s) : artifactEvidence w sourceId ref artifact = .ok v := by
  simp [artifactEvidence, href, hv, hs]

end Worth

/-! ## What an application writes -/

theorem intersect_shaped {localSetting observed : Setting} (hlocal : localSetting.shaped = true) (hobserved : observed.shaped = true) :
    (intersect localSetting observed).shaped = true := by
  unfold intersect
  split
  case h_1 => rfl
  case h_2 => rfl
  case h_3 => rfl
  case h_4 => exact hobserved
  case h_5 => exact hlocal
  case h_6 =>
    dsimp only
    split
    case isTrue => rfl
    case isFalse hshared => simpa [Setting.shaped] using hshared

section Grants

variable {now : Timestamp} {gs : List Grant}

theorem revokeWhere_principals {condition : Grant → Bool} {g : Grant} (h : g ∈ revokeWhere now condition gs) :
    ∃ g' ∈ gs, g'.principalRef = g.principalRef := by
  obtain ⟨g', hg', rfl⟩ := List.mem_map.mp h
  refine ⟨g', hg', ?_⟩
  split <;> rfl

theorem allowAll_principals {principals : List String} {g : Grant} (h : g ∈ allowAll principals gs) :
    g.principalRef ∈ principals ∨ ∃ g' ∈ gs, g'.principalRef = g.principalRef := by
  rcases List.mem_append.mp h with h | h
  · obtain ⟨g', hg', rfl⟩ := List.mem_map.mp h
    refine .inr ⟨g', hg', ?_⟩
    split <;> rfl
  · obtain ⟨p, hp, rfl⟩ := List.mem_map.mp h
    exact .inl (List.mem_filter.mp hp).1

/-- The grants after an observation are for the observed principals and those before it. -/
theorem grants_principals {e : AclEvidence} {g : Grant} (h : g ∈ e.grants now gs) :
    g.principalRef ∈ e.principals ∨ ∃ g' ∈ gs, g'.principalRef = g.principalRef := by
  unfold AclEvidence.grants at h
  split at h
  case isTrue =>
    obtain ⟨g', hg', heq⟩ := revokeWhere_principals h
    rw [← heq]
    exact allowAll_principals hg'
  case isFalse =>
    split at h
    case isTrue => exact .inr (revokeWhere_principals h)
    case isFalse => exact .inr ⟨g, h, rfl⟩

end Grants

section Apply

variable {sourceId versionId : UUID} {ref : String} {e : AclEvidence} {p : Policy}

theorem observed_checks {version : Nat} (hchecks : p.checks = true) (hversion : p.policyVersion < MAX_BIGINT)
    (hepoch : w.policyEpoch < MAX_BIGINT) (hshaped : e.status = .resolved → e.setting.shaped = true)
    (hcounts : e.policyEpoch.all countsFrom1 = true) :
    (p.observed e versionId version (w.policyEpoch + 1)).checks = true := by
  simp only [Policy.checks, Bool.and_eq_true, countsFrom1, decide_eq_true_eq] at hchecks
  obtain ⟨⟨⟨⟨⟨⟨hcount, -⟩, hlocal⟩, -⟩, -⟩, -⟩, -⟩ := hchecks
  have heffective : (if e.status = .resolved then intersect p.localSetting e.setting else .isolated).shaped = true := by
    split
    case isTrue h => exact intersect_shaped hlocal (hshaped h)
    case isFalse => rfl
  simp only [Policy.checks, Policy.observed, heffective, hlocal, hcounts, countsFrom1, Bool.and_eq_true, beq_self_eq_true,
    and_true]
  exact ⟨decide_eq_true (by omega), decide_eq_true (by omega)⟩

/-- An article of the source with a policy is observed by any evidence whose own row passes its checks. -/
theorem applyEvidence_ok (harticle : (w.ownArticle sourceId ref).isSome) (hp : w.policies ref = some p) (hchecks : p.checks = true)
    (hversion : p.policyVersion < MAX_BIGINT) (hepoch : w.policyEpoch < MAX_BIGINT)
    (hobserved : ((w.observations ref).map (·.observationVersion)).getD 0 < MAX_BIGINT)
    (hshaped : e.status = .resolved → e.setting.shaped = true) (hcounts : e.policyEpoch.all countsFrom1 = true)
    (hgrants : ∀ g ∈ w.grants ref, trimsEmpty g.principalRef = false) (hprincipals : ∀ q ∈ e.principals, trimsEmpty q = false)
    (hrow : (e.observation (server.uuidText sourceId) sourceId versionId
      (((w.observations ref).map (·.observationVersion)).getD 0 + 1) false).checks = true) :
    ∃ row w', w.applyEvidence sourceId versionId ref false e = .ok (row, w') := by
  obtain ⟨article, harticle⟩ := Option.isSome_iff_exists.mp harticle
  have hpolicy : (p.observed e versionId (((w.observations ref).map (·.observationVersion)).getD 0 + 1) (w.policyEpoch + 1)).checks =
      true := observed_checks hchecks hversion hepoch hshaped hcounts
  have hall : ((e.grants w.clock (w.grants ref)).all fun g => trimsEmpty g.principalRef = false) = true := by
    refine List.all_eq_true.mpr fun g hg => decide_eq_true ?_
    rcases grants_principals hg with hin | ⟨g', hg', heq⟩
    · exact hprincipals _ hin
    · rw [← heq]
      exact hgrants g' hg'
  have hsettle : ∃ published u, w.settle sourceId versionId ref false e
      (((w.observations ref).map (·.observationVersion)).getD 0 + 1) = .ok (published, u) := by
    simp only [Store.settle, harticle, hp, Bool.false_eq_true, if_false, bind_eq_ok, require_eq_ok, exists_const, Except.ok.injEq]
    exact ⟨_, _, hversion, hpolicy, hall, rfl⟩
  obtain ⟨published, u, hsettle⟩ := hsettle
  have hle : ((w.observations ref).map (·.observationVersion)).getD 0 + 1 ≤ MAX_BIGINT := hobserved
  cases hresult : w.applyEvidence sourceId versionId ref false e with
  | ok result => exact ⟨result.1, result.2, rfl⟩
  | error exit =>
    simp only [Store.applyEvidence, require, if_pos hle, if_pos hepoch, if_pos hrow, hsettle, bind, Except.bind] at hresult
    cases hresult

/-- Without evidence nothing is written. -/
theorem apply_error {r : ApplyRequest} {page : FeishuPage server} {delete : Bool} {document envelope : Jsonb} {exit : Exit}
    (hcontrol : r.session.user = .control)
    (hsession : r.session.organizationId = r.organizationId ∧ r.organizationId = some w.organizationId)
    (href : r.documentRef = some ref) (hdelete : r.deleteObservation = some delete) (hpage : w.feishuPage r = some page)
    (hdocument : server.parseJsonb page.payload = some document) (henvelope : envelopeOf server document ref delete = some envelope)
    (he : evidenceOf w page.sourceId ref (envelope.get "acl_observation") = .error exit) :
    applyFeishuAclObservation w r = .error exit := by
  simp only [applyFeishuAclObservation, require, hcontrol, hsession, found, href, hdelete, hpage, hdocument, henvelope, he, bind,
    Except.bind, and_self, if_true]

end Apply

/-! ## The evidence's row -/

section Row

variable {sourceId versionId : UUID} {ref sourceRef : String} {artifact : Jsonb} {v : Verified} {t : Timestamp} {n : Int} {version : Nat}

/-- The evidence of a worth. -/
def Store.worthOf (w : Store server) (ref : String) (v : Verified) (t : Timestamp) (n : Int) : AclEvidence :=
  AclEvidence.fresh ⟨v.status.getD .unresolvedGroup, ⟨v.policyKind, v.groups⟩, v.principals, t, t, some n⟩ (w.observations ref) w.clock

theorem worthOf_stale (h : w.observedSince ref t = true) :
    w.worthOf ref v t n = ⟨.failed, .isolated, [], w.clock, t, some n⟩ := by
  rw [Store.worthOf, AclEvidence.fresh]
  exact if_pos h

theorem worthOf_fresh (h : ¬w.observedSince ref t = true) :
    w.worthOf ref v t n = ⟨v.status.getD .unresolvedGroup, ⟨v.policyKind, v.groups⟩, v.principals, t, t, some n⟩ := by
  rw [Store.worthOf, AclEvidence.fresh]
  exact if_neg h

theorem worth_shaped (h : artifactEvidence w sourceId ref artifact = .ok v) (hkind : v.policyKind.isSome) :
    (Setting.mk v.policyKind v.groups).shaped = true := by
  rcases artifactEvidence_cases h with rfl | rfl | ⟨-, -, hv⟩
  · cases hkind
  · cases hkind
  · rcases verify_cases hv with rfl | rfl | ⟨-, hgroups, -⟩
    · cases hkind
    · cases hkind
    · obtain ⟨k, hk⟩ := Option.isSome_iff_exists.mp hkind
      have hiff := hgroups k hk
      rw [hk]
      cases k <;> simp_all [Setting.shaped]

/-- The row of the evidence passes its checks unless it is resolved without a kind. -/
theorem worth_checks_iff (h : artifactEvidence w sourceId ref artifact = .ok v) (ht : t ≤ w.clock) (hn : countsFrom1 n = true)
    (hversion : countsFrom1 version = true) :
    ((w.worthOf ref v t n).observation sourceRef sourceId versionId version false).checks = true ↔
      (v.status = some .resolved → v.policyKind = none → w.observedSince ref t = true) := by
  by_cases hstale : w.observedSince ref t = true
  · rw [worthOf_stale hstale]
    simp [Observation.checks, AclEvidence.observation, Setting.isolated, hversion, hn, ht, hstale]
  · rw [worthOf_fresh hstale]
    rcases artifactEvidence_cases h with rfl | rfl | ⟨-, hstatus, -⟩
    · simp [Observation.checks, AclEvidence.observation, Verified.failed, hversion, hn]
    · simp [Observation.checks, AclEvidence.observation, Verified.unresolvedGroup, hversion, hn]
    · have hshaped := worth_shaped h
      cases hkind : v.policyKind with
      | none =>
        simp [Observation.checks, AclEvidence.observation, hstatus, hstale]
      | some k =>
        rw [hkind] at hshaped
        simp [Observation.checks, AclEvidence.observation, hstatus, hversion, hn, hshaped rfl]

theorem worth_counts (hn : countsFrom1 n = true) : (w.worthOf ref v t n).policyEpoch.all countsFrom1 = true := by
  by_cases hstale : w.observedSince ref t = true
  · rw [worthOf_stale hstale]
    exact hn
  · rw [worthOf_fresh hstale]
    exact hn

theorem worth_setting_shaped (h : artifactEvidence w sourceId ref artifact = .ok v)
    (hkind : v.status = some .resolved → v.policyKind = none → w.observedSince ref t = true)
    (hstatus : (w.worthOf ref v t n).status = .resolved) : (w.worthOf ref v t n).setting.shaped = true := by
  by_cases hstale : w.observedSince ref t = true
  · rw [worthOf_stale hstale] at hstatus
    cases hstatus
  · rw [worthOf_fresh hstale] at hstatus ⊢
    refine worth_shaped h (Option.isSome_iff_ne_none.mpr fun hnone => hstale (hkind ?_ hnone))
    cases hs : v.status with
    | none => simp [hs] at hstatus
    | some s => simpa [hs] using hstatus

/-- The principals of a worth are mapped. -/
theorem worth_principals (h : artifactEvidence w sourceId ref artifact = .ok v)
    (hmapping : ∀ identity principal, w.configuration.mapping sourceId .identity identity = some principal → trimsEmpty principal = false) :
    ∀ q ∈ (w.worthOf ref v t n).principals, trimsEmpty q = false := by
  intro q hq
  by_cases hstale : w.observedSince ref t = true
  · rw [worthOf_stale hstale] at hq
    cases hq
  · rw [worthOf_fresh hstale] at hq
    rcases artifactEvidence_cases h with rfl | rfl | ⟨-, -, hv⟩
    · cases hq
    · cases hq
    · rcases verify_cases hv with rfl | rfl | ⟨-, -, hprincipals⟩
      · cases hq
      · cases hq
      · obtain ⟨identity, hidentity⟩ := hprincipals q hq
        exact hmapping identity q hidentity

/-- Only fresh, resolved evidence leaves a policy published. -/
theorem worth_published {p : Policy} {epoch : Nat} (h : (p.observed (w.worthOf ref v t n) versionId version epoch).published = true) :
    v.status = some .resolved ∧ ¬w.observedSince ref t = true := by
  by_cases hresolved : (w.worthOf ref v t n).status = .resolved
  · by_cases hstale : w.observedSince ref t = true
    · rw [worthOf_stale hstale] at hresolved
      cases hresolved
    · refine ⟨?_, hstale⟩
      rw [worthOf_fresh hstale] at hresolved
      cases hs : v.status with
      | none => simp [hs] at hresolved
      | some s => simpa [hs] using hresolved
  · simp [Policy.observed, hresolved, Setting.isolated] at h

end Row

/-! ## Applications -/

section Presented

variable {r : ApplyRequest} {page : FeishuPage server} {ref : String} {acl : Option Jsonb} {p : Policy}

/-- What acceptance found of a mirrored observation. -/
theorem Presented.reads (h : Presented w r page ref acl p)
    (hmirrored : evidenceClass (server.text (acl.bind (·.get "evidence_class"))) = some .mirrored) :
    names server acl "organization_id" w.organizationId = true ∧ Jsonb.isA .string (acl.bind (·.get "evidence_payload")) = true ∧
      ∃ t n, observedTime server acl = some t ∧ t ≤ w.clock ∧
        (server.text (acl.bind (·.get "policy_epoch"))).bind server.bigint = some n ∧ countsFrom1 n = true := by
  obtain ⟨document, envelope, hdocument, henvelope, rfl⟩ := h.envelope
  have hselected := List.find?_some h.selected
  simp only [Bool.and_eq_true, decide_eq_true_eq] at hselected
  have horg : page.organizationId = w.organizationId := hselected.1.1
  obtain ⟨s, hs⟩ := Option.isSome_iff_exists.mp page.staged
  simp only [stage, hdocument, Option.bind_eq_bind, Option.bind_some, Option.bind_eq_some_iff, Option.guard_eq_some',
    exists_const] at hs
  obtain ⟨-, -, -, -, -, -, -, -, -, hdocuments, -⟩ := hs
  rw [envelopeOf, if_neg Bool.false_ne_true] at henvelope
  have haccepts := List.all_eq_true.mp hdocuments _ (List.mem_of_find?_eq_some henvelope)
  simp only [acceptsDocument, acceptsAcl, hmirrored, Bool.and_eq_true, horg] at haccepts
  obtain ⟨-, ⟨⟨⟨-, hnames⟩, hepoch⟩, hobserved⟩, hpayload⟩ := haccepts
  refine ⟨hnames, ?_, ?_⟩
  · simp only [carriesPayload, Bool.and_eq_true] at hpayload
    exact hpayload.1.1
  · obtain ⟨t, ht, hle⟩ : ∃ t, observedTime server (envelope.get "acl_observation") = some t ∧ t ≤ page.acceptedAt := by
      simp only [observedBy, Bool.and_eq_true, Option.any_eq_true] at hobserved
      obtain ⟨-, text, htext, -, t, ht, hle⟩ := hobserved
      exact ⟨t, by rw [observedTime, htext, Option.bind_some, ht], of_decide_eq_true hle⟩
    obtain ⟨n, hn, hcount⟩ : ∃ n, (server.text ((envelope.get "acl_observation").bind (·.get "policy_epoch"))).bind server.bigint =
        some n ∧ countsFrom1 n = true := by
      unfold epochWithin at hepoch
      split at hepoch
      case h_1 n hnumber =>
        simp only [Bool.and_eq_true, decide_eq_true_eq, Option.bind_eq_bind, Option.bind_some, Option.pure_def,
          Option.all_some] at hepoch
        have hle := page.leaseEpoch_le
        have htext : server.text (some (.number n)) = some (server.valueText (.number n)) := rfl
        refine ⟨n.unscaled, ?_, decide_eq_true (by omega)⟩
        rw [hnumber, htext, Option.bind_some]
        exact h.epoch n hnumber
      case h_2 => cases hepoch
    exact ⟨t, n, ht, hle.trans h.accepted, hn, hcount⟩

theorem evidenceOf_eq_ok_iff {sourceId : UUID} {e : AclEvidence}
    (hmirrored : evidenceClass (server.text (acl.bind (·.get "evidence_class"))) = some .mirrored)
    (hnames : names server acl "organization_id" w.organizationId = true)
    (hstring : Jsonb.isA .string (acl.bind (·.get "evidence_payload")) = true) {t : Timestamp} {n : Int}
    (ht : observedTime server acl = some t) (hn : (server.text (acl.bind (·.get "policy_epoch"))).bind server.bigint = some n) :
    evidenceOf w sourceId ref acl = .ok e ↔ ∃ payload artifact v, evidencePayload server acl = some payload ∧
      server.castJsonb payload = .ok artifact ∧ artifactEvidence w sourceId ref artifact = .ok v ∧ w.worthOf ref v t n = e := by
  rw [observedTime] at ht
  simp only [evidenceOf, bind_eq_ok, require_eq_ok, found_eq_ok, handled_eq_ok, exists_const, Except.ok.injEq, hmirrored, hnames, hstring, ht, hn,
    true_and, evidencePayload, Option.some.injEq, exists_eq_left', Store.worthOf]
  constructor
  · rintro ⟨payload, hpayload, artifact, hartifact, v, hv, heq⟩
    exact ⟨payload, artifact, v, hpayload, hartifact, hv, heq⟩
  · rintro ⟨payload, artifact, v, hpayload, hartifact, hv, heq⟩
    exact ⟨payload, hpayload, artifact, hartifact, v, hv, heq⟩

/-- **Applying an accepted document fails closed exactly if the function can digest its
    evidence.** -/
theorem fails_closed_iff (h : Presented w r page ref acl p) :
    FailsClosed w r page ref acl ↔ Digestible w page.sourceId ref acl := by
  have hcounts : countsFrom1 ((((w.observations ref).map (·.observationVersion)).getD 0 + 1 : Nat) : Int) = true := by
    have := h.version_lt
    simp only [countsFrom1, decide_eq_true_eq]
    omega
  obtain ⟨document, envelope, hdocument, henvelope, hacl⟩ := h.envelope
  constructor
  · rintro ⟨row, w', happly, -⟩
    obtain ⟨page', ref', delete, e, happlies, hevidence⟩ := apply_ok happly
    obtain rfl : page' = page := Option.some.inj (happlies.selected.symm.trans h.selected)
    obtain rfl : ref' = ref := Option.some.inj (happlies.documentRef.symm.trans h.documentRef)
    obtain rfl : delete = false := Option.some.inj (happlies.deleteObservation.symm.trans h.deleteObservation)
    obtain ⟨document', envelope', hdocument', henvelope', he⟩ := happlies.evidence
    obtain rfl : document' = document := Option.some.inj (hdocument'.symm.trans hdocument)
    obtain rfl : envelope' = envelope := Option.some.inj (henvelope'.symm.trans henvelope)
    rw [hacl] at he
    have hmirrored : evidenceClass (server.text (acl.bind (·.get "evidence_class"))) = some .mirrored := by
      simp only [evidenceOf, bind_eq_ok, require_eq_ok, exists_const] at he
      exact he.1
    obtain ⟨hnames, hstring, t, n, ht, hpast, hn, hn'⟩ := h.reads hmirrored
    obtain ⟨payload, artifact, v, hpayload, hartifact, hv, rfl⟩ := (evidenceOf_eq_ok_iff hmirrored hnames hstring ht hn).mp he
    have hchecks := (worth_checks_iff hv hpast hn' hcounts).mp (applyEvidence_applied hevidence).checks
    refine ⟨hmirrored, payload, artifact, hpayload, hartifact, fun href => ?_⟩
    obtain ⟨hraised, hextractable⟩ := artifactEvidence_ok_iff.mp ⟨v, hv⟩ href
    refine ⟨fun flattening graphText hquoted hcast => ?_, hextractable, fun f hf hunnamed => ⟨t, ht, ?_⟩⟩
    · exact hraised (flattening_raised_iff.mpr ⟨flattening, graphText, hquoted, hcast⟩)
    have hextract : Extractable server f := hextractable f hf
    have hverified : ∃ v', verifyAclArtifact server (w.configuration.mapping page'.sourceId) w.configuration.ownedGroup artifact =
        .ok v' := (verify_ok_iff hf).mpr hextract
    obtain ⟨v', hv'⟩ := hverified
    obtain ⟨hstatus, hkind⟩ := (verify_unnamed_iff hf hv').mpr hunnamed
    obtain rfl : v = v' := by
      have := hv.symm.trans (artifactEvidence_of_verify href hv' hstatus)
      exact Except.ok.inj this
    exact hchecks hstatus hkind
  · rintro ⟨hmirrored, payload, artifact, hpayload, hartifact, hdigest⟩
    obtain ⟨hnames, hstring, t, n, ht, hpast, hn, hn'⟩ := h.reads hmirrored
    have hraised : server.text (artifact.get "document_ref") = some ref → flatteningOf server artifact ≠ .error .raised := by
      intro href hraised
      obtain ⟨flattening, graphText, hquoted, hcast⟩ := flattening_raised_iff.mp hraised
      exact (hdigest href).graph flattening graphText hquoted hcast
    obtain ⟨v, hv⟩ := artifactEvidence_ok_iff.mpr fun href => ⟨hraised href, (hdigest href).extractable⟩
    have he : evidenceOf w page.sourceId ref acl = .ok (w.worthOf ref v t n) :=
      (evidenceOf_eq_ok_iff hmirrored hnames hstring ht hn).mpr ⟨payload, artifact, v, hpayload, hartifact, hv, rfl⟩
    have happlies : Applies w r page ref false (w.worthOf ref v t n) :=
      ⟨h.documentRef, h.deleteObservation, h.selected, document, envelope, hdocument, henvelope, hacl ▸ he⟩
    have hkind : v.status = some .resolved → v.policyKind = none → w.observedSince ref t = true := by
      intro hstatus hnone
      rcases artifactEvidence_cases hv with rfl | rfl | ⟨href, -, hverify⟩
      · cases hstatus
      · cases hstatus
      · obtain ⟨f, hf⟩ := verify_flattening hverify
        obtain ⟨t', ht', hsince⟩ := (hdigest href).named f hf ((verify_unnamed_iff hf hverify).mp ⟨hstatus, hnone⟩)
        rwa [Option.some.inj (ht.symm.trans ht')]
    obtain ⟨row, w', hok⟩ := applyEvidence_ok h.article h.policy h.policy_checks h.policyVersion_lt h.policyEpoch_lt h.version_lt
      (worth_setting_shaped hv hkind) (worth_counts hn') h.grants_checks (worth_principals hv h.mapping_checks)
      ((worth_checks_iff hv hpast hn' hcounts).mpr hkind)
    refine ⟨row, w', (apply_of_applies h.control h.session happlies).trans hok, fun p' hp' hpublished => ?_⟩
    obtain ⟨article, harticle⟩ := Option.isSome_iff_exists.mp h.article
    have hobserved := (applyEvidence_observed hok harticle h.policy).1
    obtain rfl := Option.some.inj (hobserved.symm.trans hp')
    obtain ⟨hstatus, hfresh⟩ := worth_published hpublished
    rcases artifactEvidence_cases hv with rfl | rfl | ⟨-, -, hverify⟩
    · cases hstatus
    · cases hstatus
    · refine ⟨payload, artifact, v, hpayload, hartifact, hverify, hstatus, ?_⟩
      cases hnone : v.policyKind with
      | none => exact absurd (hkind hstatus hnone) hfresh
      | some k => rfl

end Presented

/-! ### Two documents of the page -/

namespace FeishuInstance

/-- The access observation of a document of the page. -/
def aclOf (ref : String) (payload : List UInt8) : Option Jsonb := (envelope ref payload).get "acl_observation"

theorem aclOf_members (ref : String) (payload : List UInt8) : aclOf ref payload = some (.object [("evidence_class", .string "mirrored"),
    ("evidence_payload", .string (String.ofList (base64 payload))), ("observed_at", .string observedText),
    ("organization_id", .string (uuidText organizationId)), ("policy_epoch", .number ⟨1, 0⟩),
    ("source_lacks_stronger_acl", .null)]) := by
  simp only [aclOf, envelope, Jsonb.get_cons, if_true]

theorem aclOf_mirrored (ref : String) (payload : List UInt8) :
    evidenceClass (postgres.text ((aclOf ref payload).bind (·.get "evidence_class"))) = some .mirrored := by
  have hmirrored : evidenceClass (some "mirrored") = some .mirrored := by decide
  rw [aclOf_members, Option.bind_some]
  simp only [Jsonb.get_cons, if_true, text_string]
  exact hmirrored

theorem aclOf_payload {ref : String} {payload : List UInt8}
    (hdecode : postgres.decodeBase64 (String.ofList (base64 payload)) = some payload) :
    evidencePayload postgres (aclOf ref payload) = some payload := by
  rw [evidencePayload, aclOf_members, Option.bind_some]
  simp only [Jsonb.get_cons, String.reduceEq, if_true, if_false, text_string, Option.bind_some]
  exact hdecode

theorem aclOf_epoch {ref : String} {payload : List UInt8} {n : Numeric}
    (h : (aclOf ref payload).bind (·.get "policy_epoch") = some (.number n)) :
    postgres.bigint (postgres.valueText (.number n)) = some n.unscaled := by
  rw [aclOf_members, Option.bind_some] at h
  simp only [Jsonb.get_cons, String.reduceEq, if_true, if_false, Option.some.injEq, Jsonb.number.injEq] at h
  rw [← h]
  exact octets.epoch

theorem mapping_checked {identity principal : String} (h : configuration.mapping (id 20) .identity identity = some principal) :
    trimsEmpty principal = false := by
  simp only [configuration, true_and] at h
  split at h
  · cases h
    decide
  · cases h

/-- What the set-up left of the rows that are read. -/
structure Rows : Prop where
  second_checks : (store.policies "doc-2").all (fun p => p.checks && decide (p.policyVersion < MAX_BIGINT)) = true
  epoch : store.policyEpoch < MAX_BIGINT
  third_grants : store.grants "doc-3" = []

theorem rows : Rows := by constructor <;> decide +kernel

theorem private_presented {p : Policy} (hp : store.policies "doc-2" = some p) :
    Presented store (request "doc-2") page "doc-2" (aclOf "doc-2" (ascii (dumpsChars privateArtifact))) p := by
  have hchecks := rows.second_checks
  simp only [hp, Option.all_some, Bool.and_eq_true, decide_eq_true_eq] at hchecks
  have hobservation := store_facts.2.1
  constructor
  case control => rfl
  case session => exact ⟨rfl, rfl⟩
  case documentRef => rfl
  case deleteObservation => rfl
  case selected => exact store_feishuPage _
  case envelope => exact ⟨pageDocument, _, parses_page, page_envelope _ (ascii (dumpsChars privateArtifact)) (by simp), rfl⟩
  case accepted => exact le_of_eq store_facts.2.2.1.symm
  case epoch => exact fun n h => aclOf_epoch h
  case article => exact Option.isSome_iff_exists.mpr ⟨_, store_article2⟩
  case policy => exact hp
  case policy_checks => exact hchecks.1
  case grants_checks => simp [store_second.2.2]
  case mapping_checks => exact fun identity principal h => mapping_checked h
  case version_lt => simp [hobservation, MAX_BIGINT]
  case policyVersion_lt => exact hchecks.2
  case policyEpoch_lt => exact rows.epoch

/-- The private document fails closed, whatever policy its article has. -/
theorem private_fails_closed : ∃ p, store.policies "doc-2" = some p ∧
    FailsClosed store (request "doc-2") page "doc-2" (aclOf "doc-2" (ascii (dumpsChars privateArtifact))) := by
  obtain ⟨p, hp, -⟩ := store_policy2
  have hnodes : ∀ f, flatteningOf postgres privateArtifact = .ok f → graphNodes postgres f.graph = [] := by
    intro f hf
    have hgraph : f.graph = graph := by rw [← Except.ok.inj (private_flattening.symm.trans hf)]
    rw [hgraph]
    simp only [graphNodes, graph, Jsonb.get_cons, if_true, Jsonb.elements, List.map_nil]
  have hkind : postgres.text (privateArtifact.get "policy_kind") = some "private" := by
    simp only [privateArtifact, Jsonb.get_cons, String.reduceEq, if_true, if_false]
    rfl
  refine ⟨p, hp, (fails_closed_iff (private_presented hp)).mpr ⟨aclOf_mirrored _ _, _, privateArtifact,
    aclOf_payload decodes.2.2.2, casts.2.2.1, fun _ => ⟨fun flattening graphText hquoted hcast => ?_, fun f hf ref _ n hn => ?_,
      fun f _ hunnamed => ?_⟩⟩⟩
  · have hraised := private_flattening.symm.trans (flattening_raised_iff.mpr ⟨flattening, graphText, hquoted, hcast⟩)
    cases hraised
  · simp [hnodes f hf, nodesOf] at hn
  · have := hunnamed.2.1
    rw [hkind] at this
    cases this

/-- The policy of an article that its source shared with the organization. -/
def sharedPolicy : Policy where
  policyVersion := 2
  localSetting := ⟨some .organization, []⟩
  effective := ⟨some .organization, []⟩
  published := true
  resolutionRung := .tenantDefault
  sourceObservationStatus := .resolved
  sourceObservationVersion := some 1
  sourceVersionRef := some (id 21)
  sourceAclAsOf := some (observedAt - MICROS)
  sourceDeclaredLagSeconds := some 0
  sourcePolicyEpoch := some 1
  fixedAtPolicyEpoch := 1

def sharedObservation : Observation where
  sourceRef := uuidText (id 20)
  sourceId := some (id 20)
  sourceVersionRef := some (id 21)
  status := .resolved
  setting := ⟨some .organization, []⟩
  observationVersion := 1
  observedAt := observedAt - MICROS
  aclAsOf := some (observedAt - MICROS)
  declaredLagSeconds := some 0
  sourcePolicyEpoch := some 1

/-- The third document, as an earlier page left it: published. -/
def sharedStore : Store postgres :=
  { (store.setPolicy "doc-3" sharedPolicy).setObservation "doc-3" sharedObservation with
    resources := Function.update store.resources "doc-3" (some ⟨uuidText (id 20), false⟩) }

theorem shared_presented :
    Presented sharedStore (request "doc-3") page "doc-3" (aclOf "doc-3" undecodable) sharedPolicy := by
  have hobservation : sharedStore.observations "doc-3" = some sharedObservation := by
    show Function.update store.observations "doc-3" (some sharedObservation) "doc-3" = _
    exact Function.update_self _ _ _
  have hresource : sharedStore.resources "doc-3" = some ⟨uuidText (id 20), false⟩ := by
    show Function.update store.resources "doc-3" (some ⟨uuidText (id 20), false⟩) "doc-3" = _
    exact Function.update_self _ _ _
  have hpolicy : sharedStore.policies "doc-3" = some sharedPolicy := by
    show Function.update store.policies "doc-3" (some sharedPolicy) "doc-3" = _
    exact Function.update_self _ _ _
  have hgrants : sharedStore.grants "doc-3" = [] := rows.third_grants
  constructor
  case control => rfl
  case session => exact ⟨rfl, rfl⟩
  case documentRef => rfl
  case deleteObservation => rfl
  case selected => exact store_feishuPage _
  case envelope => exact ⟨pageDocument, _, parses_page, page_envelope _ undecodable (by simp), rfl⟩
  case accepted => exact le_of_eq store_facts.2.2.1.symm
  case epoch => exact fun n h => aclOf_epoch h
  case article => simp [Store.ownArticle, hresource, page, uuidText_eq]
  case policy => exact hpolicy
  case policy_checks => decide
  case grants_checks => simp [hgrants]
  case mapping_checks => exact fun identity principal h => mapping_checked h
  case version_lt => simp [hobservation, sharedObservation, MAX_BIGINT]
  case policyVersion_lt => decide
  case policyEpoch_lt => exact rows.epoch

/-- Evidence that is no JSON text has no worth, not even an isolating one. -/
theorem unreadable_evidence {w : Store postgres} {ref : String} {payload : List UInt8} (horg : w.organizationId = organizationId)
    (hdecode : postgres.decodeBase64 (String.ofList (base64 payload)) = some payload) (hcast : postgres.castJsonb payload = .error .dataException) :
    evidenceOf w (id 20) ref (aclOf ref payload) = .error .noRow := by
  have hmirrored : evidenceClass (some "mirrored") = some .mirrored := by decide
  have hnames : (some (uuidText organizationId) == some (uuidText organizationId)) = true := beq_self_eq_true _
  have hstring : Jsonb.isA .string (some (.string (String.ofList (base64 payload)))) = true := rfl
  simp only [evidenceOf, aclOf_members, names, Option.bind_some, Jsonb.get_cons, String.reduceEq, if_true, if_false, text_string,
    uuidText_eq, octets.epoch, hdecode, timestamptz_observed, hcast, handled, require, found, hmirrored, horg, hnames, hstring, bind,
    Except.bind]

/-- A page whose evidence for the third document is no JSON text was accepted. Applying it
    returns no row, and the document stays published. -/
theorem undecodable_keeps_published :
    Presented sharedStore (request "doc-3") page "doc-3" (aclOf "doc-3" undecodable) sharedPolicy ∧ sharedPolicy.published = true ∧
      applyFeishuAclObservation sharedStore (request "doc-3") = .error .noRow ∧
      ¬FailsClosed sharedStore (request "doc-3") page "doc-3" (aclOf "doc-3" undecodable) := by
  have horganization : sharedStore.organizationId = organizationId := rfl
  have happly : applyFeishuAclObservation sharedStore (request "doc-3") = .error .noRow :=
    apply_error shared_presented.control shared_presented.session shared_presented.documentRef shared_presented.deleteObservation
      shared_presented.selected parses_page (page_envelope "doc-3" undecodable (by simp))
      (unreadable_evidence horganization decodes.2.1 casts.2.2.2.2)
  refine ⟨shared_presented, rfl, happly, ?_⟩
  rintro ⟨row, w', hok, -⟩
  rw [happly] at hok
  cases hok

end FeishuInstance

end ArticlePolicy

end ContextEngine.Control
