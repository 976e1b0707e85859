/-
  ContextEngine.Adapters.FeishuConnectorProofs — flattening is reachability, but for groups that
  share a local group, and page references tell tokens apart, but for where one token ends.

  Proved:
  (1) A walk touches a set of groups that is closed but for its path (`visit_spec`): a group of
      the path was expanded further up. From the empty path that is every reachable group.
  (2) The artifact is exact if and only if no unreachable group has the local group of a
      reachable one (`flattening_exact_iff`).
  (3) Two calls hash the same octets if and only if their tokens, written one after the other,
      are the same text (`page_octets_injective_iff`).
-/

import ContextEngine.Adapters.FeishuConnector
import ContextEngine.Machine.Closure

namespace ContextEngine.Adapters.Feishu

open ContextEngine.Machine ContextEngine.Python ContextEngine.Runtime

/-! ## The graph -/

section Graph

variable (s : GroupSnapshot) (mapper : Ref → Except Raised IdentityMapping)

def Edge (g c : Ref) : Prop := ∃ node, s.node g = some node ∧ c ∈ node.childGroupRefs

def HasLocal (g l : Ref) : Prop := ∃ node, s.node g = some node ∧ node.localGroupRef = some l

/-- No node, or none with a local group. -/
def Unresolved (g : Ref) : Prop := ∀ node, s.node g = some node → node.localGroupRef = none

def Lists (g i : Ref) : Prop := ∃ node, s.node g = some node ∧ i ∈ node.identityRefs

/-- A group that a requested one leads to. -/
def Reached (requested : List Ref) (g : Ref) : Prop := ∃ r ∈ requested, Relation.ReflTransGen (Edge s) r g

def Maps (i p : Ref) : Prop := mapper i = .ok ⟨i, some p⟩

def Opaque (i : Ref) : Prop := mapper i = .ok ⟨i, none⟩

/-- What is found of the groups `touched` and of the identities `listed`. -/
structure Adds (touched listed : Ref → Prop) (found found' : Found) : Prop where
  localGroups : ∀ l, l ∈ found'.localGroups ↔ l ∈ found.localGroups ∨ ∃ g, touched g ∧ HasLocal s g l
  localPrincipals : ∀ p, p ∈ found'.localPrincipals ↔ p ∈ found.localPrincipals ∨ ∃ i, listed i ∧ Maps mapper i p
  claims : ∀ i p, (i, p) ∈ found'.identityMappingClaims ↔ (i, p) ∈ found.identityMappingClaims ∨ listed i ∧ Maps mapper i p
  opaqueIdentities : ∀ i, i ∈ found'.opaqueIdentities ↔ i ∈ found.opaqueIdentities ∨ listed i ∧ Opaque mapper i
  unresolved : ∀ g, g ∈ found'.unresolved ↔ g ∈ found.unresolved ∨ touched g ∧ Unresolved s g

/-- The claims that a dictionary has are the mapper's. -/
def Consistent (found : Found) : Prop := ∀ i p, (i, p) ∈ found.identityMappingClaims → Maps mapper i p

variable {s mapper}

theorem Adds.refl (found : Found) : Adds s mapper (fun _ => False) (fun _ => False) found found := by
  constructor <;> simp

theorem Adds.trans {touched touched' listed listed' : Ref → Prop} {a b c : Found} (h : Adds s mapper touched listed a b)
    (h' : Adds s mapper touched' listed' b c) : Adds s mapper (fun g => touched g ∨ touched' g) (fun i => listed i ∨ listed' i) a c := by
  constructor
  · intro l
    rw [h'.localGroups, h.localGroups]
    simp only [or_and_right, exists_or, or_assoc]
  · intro p
    rw [h'.localPrincipals, h.localPrincipals]
    simp only [or_and_right, exists_or, or_assoc]
  · intro i p
    rw [h'.claims, h.claims]
    simp only [or_and_right, or_assoc]
  · intro i
    rw [h'.opaqueIdentities, h.opaqueIdentities]
    simp only [or_and_right, or_assoc]
  · intro g
    rw [h'.unresolved, h.unresolved]
    simp only [or_and_right, or_assoc]

/-- Only which groups and identities are meant matters. -/
theorem Adds.congr {touched touched' listed listed' : Ref → Prop} {a b : Found} (h : Adds s mapper touched listed a b)
    (ht : ∀ g, touched g ↔ touched' g) (hl : ∀ i, listed i ↔ listed' i) : Adds s mapper touched' listed' a b := by
  obtain rfl : touched = touched' := funext fun g => propext (ht g)
  obtain rfl : listed = listed' := funext fun i => propext (hl i)
  exact h

theorem Adds.consistent {touched listed : Ref → Prop} {a b : Found} (h : Adds s mapper touched listed a b)
    (hc : Consistent mapper a) : Consistent mapper b := by
  intro i p hip
  rcases (h.claims i p).mp hip with hip | ⟨-, hip⟩
  · exact hc i p hip
  · exact hip

/-! ## One group -/

theorem observeIdentity_spec {found found' : Found} {identity : Ref} (hc : Consistent mapper found)
    (h : observeIdentity mapper found identity = .ok found') : Adds s mapper (fun _ => False) (· = identity) found found' := by
  unfold observeIdentity at h
  cases hm : mapper identity with
  | error e =>
    rw [hm] at h
    cases h
  | ok mapping =>
    obtain ⟨externalRef, principal⟩ := mapping
    rw [hm] at h
    simp only [bind, Except.bind] at h
    split at h
    · cases h
    · rename_i heq
      obtain rfl : externalRef = identity := not_not.mp heq
      cases principal with
      | none =>
        cases h
        have hmaps : ∀ p, ¬ Maps mapper externalRef p := by
          intro p hp
          rw [Maps, hm] at hp
          cases hp
        refine ⟨fun l => by simp, fun p => ?_, fun i p => ?_, fun i => ?_, fun g => by simp⟩
        · simp [hmaps]
        · refine ⟨.inl, ?_⟩
          rintro (h | ⟨rfl, h⟩)
          · exact h
          · exact absurd h (hmaps p)
        · rw [Finset.mem_insert, or_comm]
          exact or_congr_right ⟨fun hi => ⟨hi, hi ▸ hm⟩, fun hi => hi.1⟩
      | some principal =>
        cases h
        have hmaps : ∀ p, Maps mapper externalRef p ↔ p = principal := by
          intro p
          rw [Maps, hm, Except.ok.injEq, IdentityMapping.mk.injEq, Option.some_inj, and_iff_right rfl]
          exact eq_comm
        refine ⟨fun l => by simp, fun p => ?_, fun i p => ?_, fun i => ?_, fun g => by simp⟩
        · simp [hmaps, or_comm]
        · rw [setItem, Finset.mem_insert, Finset.mem_filter, Prod.mk.injEq]
          constructor
          · rintro (⟨rfl, rfl⟩ | ⟨hold, -⟩)
            · exact .inr ⟨rfl, hm⟩
            · exact .inl hold
          · rintro (hold | ⟨rfl, hp⟩)
            · by_cases hi : i = externalRef
              · subst hi
                exact .inl ⟨rfl, (hmaps p).mp (hc i p hold)⟩
              · exact .inr ⟨hold, hi⟩
            · exact .inl ⟨rfl, (hmaps p).mp hp⟩
        · refine ⟨.inl, ?_⟩
          rintro (hi | ⟨rfl, hi⟩)
          · exact hi
          · rw [Opaque, hm] at hi
            cases hi

/-- A fold of steps that each add adds what they add together. -/
theorem foldlM_adds {step : Found → Ref → Except Raised Found} {touched listed : Ref → Ref → Prop}
    (hstep : ∀ r found found', Consistent mapper found → step found r = .ok found' →
      Adds s mapper (touched r) (listed r) found found') {refs : List Ref} {found found' : Found} (hc : Consistent mapper found)
    (h : refs.foldlM step found = .ok found') :
    Adds s mapper (fun g => ∃ r ∈ refs, touched r g) (fun i => ∃ r ∈ refs, listed r i) found found' := by
  induction refs generalizing found with
  | nil =>
    obtain rfl : found = found' := Except.ok.inj h
    exact (Adds.refl found).congr (fun g => by simp) fun i => by simp
  | cons r refs ih =>
    rw [List.foldlM_cons] at h
    obtain ⟨mid, hmid, h⟩ := Checks.bind_ok h
    have hfirst := hstep r found mid hc hmid
    refine (hfirst.trans (ih (hfirst.consistent hc) h)).congr (fun g => by simp) fun i => by simp

theorem identities_spec {found found' : Found} {identities : List Ref} (hc : Consistent mapper found)
    (h : identities.foldlM (observeIdentity mapper) found = .ok found') :
    Adds s mapper (fun _ => False) (· ∈ identities) found found' := by
  have hadds : Adds s mapper (fun _ => ∃ r ∈ identities, False) (fun i => ∃ r ∈ identities, i = r) found found' :=
    foldlM_adds (fun _ _ _ hc h => observeIdentity_spec hc h) hc h
  exact hadds.congr (fun g => by simp) fun i => by simp

theorem touch_spec {g : Ref} {node : GroupNode} (hnode : s.node g = some node) (found : Found) :
    Adds s mapper (· = g) (fun _ => False) found (found.touch g node) := by
  have hlocal : ∀ l, HasLocal s g l ↔ node.localGroupRef = some l := by
    intro l
    simp [HasLocal, hnode]
  have hunresolved : Unresolved s g ↔ node.localGroupRef = none := by simp [Unresolved, hnode]
  unfold Found.touch
  cases hl : node.localGroupRef with
  | none =>
    refine ⟨fun l => by simp [hlocal, hl], fun p => by simp, fun i p => by simp, fun i => by simp, fun h => ?_⟩
    rw [Finset.mem_insert, or_comm]
    exact or_congr_right ⟨fun heq => ⟨heq, heq ▸ hunresolved.mpr hl⟩, fun heq => heq.1⟩
  | some group =>
    refine ⟨fun l => by simp [hlocal, hl, or_comm, eq_comm], fun p => by simp, fun i p => by simp, fun i => by simp, fun h => ?_⟩
    refine ⟨.inl, ?_⟩
    rintro (hin | ⟨rfl, hno⟩)
    · exact hin
    · rw [hunresolved.mp hno] at hl
      cases hl

/-! ## The walk -/

/-- What a walk from `ref` lists: a group of the path was expanded further up. -/
def Listed (path : Finset Ref) (ref i : Ref) : Prop := ∃ g, Walk (Edge s) path ref g ∧ g ∉ path ∧ Lists s g i

theorem node_of_mem {node : GroupNode} (h : node ∈ s.nodes) : s.node node.externalRef = some node := by
  cases hfind : s.node node.externalRef with
  | none => simpa using List.find?_eq_none.mp hfind node h
  | some node' =>
    obtain ⟨hin, href⟩ := node_mem hfind
    have hnodup : (s.nodes.map (·.externalRef)).Nodup := s.nodes_sorted.nodup
    exact congrArg some (List.inj_on_of_nodup_map hnodup hin h href)

theorem edge_iff {g c : Ref} {node : GroupNode} (h : s.node g = some node) : Edge s g c ↔ c ∈ node.childGroupRefs := by
  simp [Edge, h]

theorem lists_iff {g i : Ref} {node : GroupNode} (h : s.node g = some node) : Lists s g i ↔ i ∈ node.identityRefs := by
  simp [Lists, h]

/-- What a group and its children list, together. -/
theorem listed_iff {path : Finset Ref} {ref i : Ref} :
    Listed (s := s) path ref i ↔
      ref ∉ path ∧ (Lists s ref i ∨ ∃ c, Edge s ref c ∧ Listed (s := s) (insert ref path) c i) := by
  constructor
  · rintro ⟨g, hwalk, hg, hi⟩
    rcases walk_iff.mp hwalk with rfl | ⟨hp, c, hc, hwalk⟩
    · exact ⟨hg, .inl hi⟩
    · refine ⟨hp, ?_⟩
      by_cases heq : g = ref
      · exact .inl (heq ▸ hi)
      · exact .inr ⟨c, hc, g, hwalk, by simp [heq, hg], hi⟩
  · rintro ⟨hp, hi | ⟨c, hc, g, hwalk, hg, hi⟩⟩
    · exact ⟨ref, .refl, hp, hi⟩
    · exact ⟨g, walk_iff.mpr (.inr ⟨hp, c, hc, hwalk⟩), fun hin => hg (Finset.mem_insert_of_mem hin), hi⟩

theorem visit_none {path : Finset Ref} {ref : Ref} {found : Found} (h : s.node ref = none) :
    visit s mapper path ref found = .ok { found with unresolved := insert ref found.unresolved } := by
  rw [visit]
  split
  · rfl
  · simp_all

theorem visit_some {path : Finset Ref} {ref : Ref} {found : Found} {node : GroupNode} (h : s.node ref = some node) :
    visit s mapper path ref found =
      if ref ∈ path then .ok (found.touch ref node)
      else node.identityRefs.foldlM (observeIdentity mapper) (found.touch ref node) >>= fun found =>
        node.childGroupRefs.foldlM (fun found child => visit s mapper (insert ref path) child found) found := by
  rw [visit]
  split
  · simp_all
  · rename_i node' hnode
    obtain rfl : node = node' := by simpa [h] using hnode
    rfl

/-- A group that is not expanded. -/
theorem alone_spec {path : Finset Ref} {ref : Ref} {found found' : Found}
    (hstop : ¬ (ref ∉ path ∧ ∃ c, Edge s ref c)) (hlists : ref ∈ path ∨ ∀ i, ¬ Lists s ref i)
    (h : Adds s mapper (· = ref) (fun _ => False) found found') :
    Adds s mapper (Walk (Edge s) path ref) (Listed (s := s) path ref) found found' := by
  refine h.congr (fun g => ?_) fun i => ?_
  · rw [walk_iff]
    refine ⟨.inl, fun hg => hg.resolve_right ?_⟩
    rintro ⟨hp, c, hc, -⟩
    exact hstop ⟨hp, c, hc⟩
  · rw [listed_iff]
    refine ⟨False.elim, ?_⟩
    rintro ⟨hp, hi | ⟨c, hc, -⟩⟩
    · exact hlists.resolve_left hp i hi
    · exact hstop ⟨hp, c, hc⟩

theorem visit_spec {path : Finset Ref} {ref : Ref} {found found' : Found} (hc : Consistent mapper found)
    (h : visit s mapper path ref found = .ok found') :
    Adds s mapper (Walk (Edge s) path ref) (Listed (s := s) path ref) found found' := by
  induction hn : (s.refs \ path).card using Nat.strong_induction_on generalizing path ref found found' with
  | _ n ih =>
    cases hnode : s.node ref with
    | none =>
      rw [visit_none hnode] at h
      obtain rfl := Except.ok.inj h
      refine alone_spec (by simp [Edge, hnode]) (by simp [Lists, hnode]) ?_
      refine ⟨fun l => by simp [HasLocal, hnode], fun p => by simp, fun i p => by simp, fun i => by simp, fun g => ?_⟩
      rw [Finset.mem_insert, or_comm]
      refine or_congr_right ⟨fun heq => ⟨heq, ?_⟩, fun heq => heq.1⟩
      subst heq
      simp [Unresolved, hnode]
    | some node =>
      rw [visit_some hnode] at h
      have htouch : Adds s mapper _ _ found _ := touch_spec hnode found
      split at h
      · rename_i hpath
        obtain rfl := Except.ok.inj h
        exact alone_spec (fun hp => hp.1 hpath) (.inl hpath) htouch
      · rename_i hpath
        obtain ⟨mid, hmid, h⟩ := Checks.bind_ok h
        have hids := htouch.trans (identities_spec (htouch.consistent hc) hmid)
        have hless : (s.refs \ insert ref path).card < n := hn ▸ card_off_path_lt hnode hpath
        have hchildren := foldlM_adds (fun _ _ _ hc h => ih _ hless hc h rfl) (hids.consistent hc) h
        refine (hids.trans hchildren).congr (fun g => ?_) fun i => ?_
        · rw [walk_iff]
          simp [hpath, edge_iff hnode]
        · rw [listed_iff]
          simp [hpath, edge_iff hnode, lists_iff hnode]

/-- All requested groups: from the empty path a walk goes everywhere. -/
theorem requested_spec {requested : List Ref} {found : Found}
    (h : requested.foldlM (fun found ref => visit s mapper ∅ ref found) .empty = .ok found) :
    Adds s mapper (Reached s requested) (fun i => ∃ g, Reached s requested g ∧ Lists s g i) .empty found := by
  have hc : Consistent mapper .empty := by simp [Consistent, Found.empty]
  have hadds := foldlM_adds (fun _ _ _ hc h => visit_spec hc h) hc h
  refine hadds.congr (fun g => ?_) fun i => ?_
  · simp only [Reached, walk_empty]
  · simp only [Listed, walk_empty, Reached, Finset.notMem_empty, not_false_eq_true, true_and]
    constructor
    · rintro ⟨r, hr, g, hg, hi⟩
      exact ⟨g, ⟨r, hr, hg⟩, hi⟩
    · rintro ⟨g, ⟨r, hr, hg⟩, hi⟩
      exact ⟨r, hr, g, hg, hi⟩

/-! ## Termination -/

theorem foldlM_total {step : Found → Ref → Except Raised Found} (hstep : ∀ r found, ∃ found', step found r = .ok found')
    (refs : List Ref) (found : Found) : ∃ found', refs.foldlM step found = .ok found' := by
  induction refs generalizing found with
  | nil => exact ⟨found, rfl⟩
  | cons r refs ih =>
    obtain ⟨mid, hmid⟩ := hstep r found
    obtain ⟨found', h⟩ := ih mid
    refine ⟨found', ?_⟩
    rw [List.foldlM_cons, hmid]
    exact h

end Graph

/-- The mapper that answers each identity with its local principal, where it has one. -/
def answering (principal : Ref → Option Ref) (i : Ref) : Except Raised IdentityMapping := .ok ⟨i, principal i⟩

section Answering

variable {s : GroupSnapshot} {principal : Ref → Option Ref}

theorem maps_answering {i p : Ref} : Maps (answering principal) i p ↔ principal i = some p := by simp [Maps, answering]

theorem opaque_answering {i : Ref} : Opaque (answering principal) i ↔ principal i = none := by simp [Opaque, answering]

theorem observeIdentity_total (i : Ref) (found : Found) : ∃ found', observeIdentity (answering principal) found i = .ok found' := by
  unfold observeIdentity
  cases h : principal i with
  | none => exact ⟨_, by simp [answering, h, bind, Except.bind]; rfl⟩
  | some p => exact ⟨_, by simp [answering, h, bind, Except.bind]; rfl⟩

theorem visit_total (path : Finset Ref) (ref : Ref) (found : Found) :
    ∃ found', visit s (answering principal) path ref found = .ok found' := by
  induction hn : (s.refs \ path).card using Nat.strong_induction_on generalizing path ref found with
  | _ n ih =>
    cases hnode : s.node ref with
    | none => exact ⟨_, visit_none hnode⟩
    | some node =>
      rw [visit_some hnode]
      split
      · exact ⟨_, rfl⟩
      · rename_i hpath
        have hless : (s.refs \ insert ref path).card < n := hn ▸ card_off_path_lt hnode hpath
        have hids : ∀ i found, ∃ found', observeIdentity (answering principal) found i = .ok found' := observeIdentity_total
        obtain ⟨mid, hmid⟩ := foldlM_total hids node.identityRefs (found.touch ref node)
        obtain ⟨found', h⟩ := foldlM_total (fun child found => ih _ hless (insert ref path) child found rfl) node.childGroupRefs mid
        refine ⟨found', ?_⟩
        rw [hmid]
        exact h

/-! ## The artifact -/

variable (s principal) in
/-- The artifact is the sorted image of the groups that are reached. -/
structure Exact (requested : List Ref) (a : Flattened) : Prop where
  localGroups : a.localGroupRefs.SortedLT ∧ ∀ l, l ∈ a.localGroupRefs ↔ ∃ g, Reached s requested g ∧ HasLocal s g l
  localPrincipals : a.localPrincipalRefs.SortedLT ∧
    ∀ p, p ∈ a.localPrincipalRefs ↔ ∃ g i, Reached s requested g ∧ Lists s g i ∧ principal i = some p
  opaqueIdentities : a.opaqueIdentityRefs.SortedLT ∧
    ∀ i, i ∈ a.opaqueIdentityRefs ↔ ∃ g, Reached s requested g ∧ Lists s g i ∧ principal i = none
  identityClaims : a.identityMappingClaims.SortedLT ∧
    ∀ i p, toLex (i, p) ∈ a.identityMappingClaims ↔ ∃ g, Reached s requested g ∧ Lists s g i ∧ principal i = some p
  unresolved : a.unresolvedGroupRefs.SortedLT ∧ ∀ g, g ∈ a.unresolvedGroupRefs ↔ Reached s requested g ∧ Unresolved s g
  groupClaims : (a.groupMappingClaims.map (·.1)).SortedLT ∧
    ∀ g l, (g, l) ∈ a.groupMappingClaims ↔ Reached s requested g ∧ HasLocal s g l

/-- What the claims list: the groups that share a local group with a reached one. -/
theorem mem_groupMappingClaims {found : Found} {g l : Ref} :
    (g, l) ∈ groupMappingClaims s found ↔ l ∈ found.localGroups ∧ HasLocal s g l := by
  simp only [groupMappingClaims, List.mem_filterMap, List.mem_mergeSort, List.mem_filter, Option.map_eq_some_iff, Prod.mk.injEq]
  constructor
  · rintro ⟨node, ⟨hin, hany⟩, group, hgroup, rfl, rfl⟩
    exact ⟨by simpa [hgroup] using hany, node, node_of_mem hin, hgroup⟩
  · rintro ⟨hl, node, hnode, hgroup⟩
    obtain ⟨hin, href⟩ := node_mem hnode
    exact ⟨node, ⟨hin, by simp [hgroup, hl]⟩, l, hgroup, href, rfl⟩

theorem groupMappingClaims_sorted (found : Found) : ((groupMappingClaims s found).map (·.1)).SortedLT := by
  have hnodes : (s.nodes.filter fun n => n.localGroupRef.any (· ∈ found.localGroups)).Pairwise
      fun a b => a.externalRef < b.externalRef :=
    (List.pairwise_map.mp s.nodes_sorted.pairwise).filter _
  rw [List.sortedLT_iff_pairwise, List.pairwise_map, groupMappingClaims, List.mergeSort_of_pairwise (hnodes.imp fun h => by simpa using h.le),
    List.pairwise_filterMap]
  refine hnodes.imp ?_
  simp only [Option.map_eq_some_iff]
  rintro a b hab _ ⟨l, -, rfl⟩ _ ⟨l', -, rfl⟩
  exact hab

/-- No group outside the reached ones has the local group of a reached one. -/
def Separate (s : GroupSnapshot) (requested : List Ref) : Prop :=
  ∀ g l g', Reached s requested g → HasLocal s g l → HasLocal s g' l → Reached s requested g'

theorem exact_iff {requested : List Ref} {found : Found}
    (h : requested.foldlM (fun found ref => visit s (answering principal) ∅ ref found) .empty = .ok found) :
    Exact s principal requested (found.artifact s requested) ↔ Separate s requested := by
  have hadds := requested_spec h
  have hgroups : ∀ l, l ∈ found.localGroups ↔ ∃ g, Reached s requested g ∧ HasLocal s g l := by
    intro l
    simp [hadds.localGroups, Found.empty]
  constructor
  · intro hexact g l g' hg hl hl'
    refine ((hexact.groupClaims.2 g' l).mp ?_).1
    exact mem_groupMappingClaims.mpr ⟨(hgroups l).mpr ⟨g, hg, hl⟩, hl'⟩
  · intro hseparate
    refine ⟨⟨Finset.sortedLT_sort _, fun l => ?_⟩, ⟨Finset.sortedLT_sort _, fun p => ?_⟩, ⟨Finset.sortedLT_sort _, fun i => ?_⟩,
      ⟨Finset.sortedLT_sort _, fun i p => ?_⟩, ⟨Finset.sortedLT_sort _, fun g => ?_⟩, groupMappingClaims_sorted found, fun g l => ?_⟩
    · rw [Found.artifact, Finset.mem_sort, hgroups]
    · rw [Found.artifact, Finset.mem_sort, hadds.localPrincipals]
      simp only [Found.empty, Finset.notMem_empty, false_or, maps_answering]
      constructor
      · rintro ⟨i, ⟨g, hg, hi⟩, hp⟩
        exact ⟨g, i, hg, hi, hp⟩
      · rintro ⟨g, i, hg, hi, hp⟩
        exact ⟨i, ⟨g, hg, hi⟩, hp⟩
    · rw [Found.artifact, Finset.mem_sort, hadds.opaqueIdentities]
      simp only [Found.empty, Finset.notMem_empty, false_or, opaque_answering, ← exists_and_right, and_assoc]
    · rw [Found.artifact, Finset.mem_sort, Finset.mem_map_equiv, Equiv.symm_apply_apply, hadds.claims]
      simp only [Found.empty, Finset.notMem_empty, false_or, maps_answering, ← exists_and_right, and_assoc]
    · rw [Found.artifact, Finset.mem_sort, hadds.unresolved]
      simp [Found.empty]
    · rw [Found.artifact, mem_groupMappingClaims, hgroups]
      constructor
      · rintro ⟨⟨g', hg', hl'⟩, hl⟩
        exact ⟨hseparate g' l g hg' hl' hl, hl⟩
      · rintro ⟨hg, hl⟩
        exact ⟨⟨g, hg, hl⟩, hl⟩

variable (s principal) in
theorem flatten_total (requested : List Ref) :
    ∃ found, requested.foldlM (fun found ref => visit s (answering principal) ∅ ref found) .empty = .ok found :=
  foldlM_total (visit_total ∅) requested .empty

end Answering

section Requests

variable {s : GroupSnapshot} {mapper : Ref → Except Raised IdentityMapping}

/-- What is found is determined by what is added. -/
theorem Adds.unique {touched listed : Ref → Prop} {a b b' : Found} (h : Adds s mapper touched listed a b)
    (h' : Adds s mapper touched listed a b') : b = b' := by
  obtain ⟨groups, principals, claims, opaqueIds, unresolved⟩ := b
  obtain ⟨groups', principals', claims', opaqueIds', unresolved'⟩ := b'
  rw [Found.mk.injEq]
  refine ⟨?_, ?_, ?_, ?_, ?_⟩
  · ext l
    rw [h.localGroups, h'.localGroups]
  · ext p
    rw [h.localPrincipals, h'.localPrincipals]
  · ext ⟨i, p⟩
    rw [h.claims, h'.claims]
  · ext i
    rw [h.opaqueIdentities, h'.opaqueIdentities]
  · ext g
    rw [h.unresolved, h'.unresolved]

/-- A request is the set of its groups. -/
theorem found_eq {requested requested' : List Ref} (hsame : ∀ r, r ∈ requested' ↔ r ∈ requested) {found found' : Found}
    (h : requested.foldlM (fun found ref => visit s mapper ∅ ref found) .empty = .ok found)
    (h' : requested'.foldlM (fun found ref => visit s mapper ∅ ref found) .empty = .ok found') : found' = found := by
  have hreached : Reached s requested' = Reached s requested := by
    ext g
    simp [Reached, hsame]
  have hadds' := requested_spec h'
  rw [hreached] at hadds'
  exact hadds'.unique (requested_spec h)

/-! ## Observations -/

theorem readers_unresolved {client : Client} {g : Ref} {r : AclResponse} {readers : Finset Ref × Flattened}
    (hsnapshot : client.groupSnapshot = .ok s) (h : client.readers r = .ok readers) (hg : Reached s (r.refs .group) g)
    (hno : Unresolved s g) : readers.2.unresolvedGroupRefs ≠ [] := by
  unfold Client.readers at h
  obtain ⟨_, -, h⟩ := Checks.bind_ok h
  obtain ⟨snapshot, hsnapshot', h⟩ := Checks.bind_ok h
  obtain rfl : s = snapshot := Except.ok.inj (hsnapshot.symm.trans hsnapshot')
  obtain ⟨flattened, hflat, h⟩ := Checks.bind_ok h
  obtain rfl := Except.ok.inj h
  obtain ⟨found, hfound, hflat⟩ := Checks.bind_ok hflat
  obtain rfl := Except.ok.inj hflat
  refine List.ne_nil_of_mem (a := g) ?_
  rw [Found.artifact, Finset.mem_sort, (requested_spec hfound).unresolved]
  exact .inr ⟨hg, hno⟩

/-- A group without a local group isolates the document, whoever answers. -/
theorem observe_unresolved {client : Client} {documentRef g : Ref} {r : AclResponse} {o : Observation}
    (hacl : client.observeAcl documentRef = .ok (.response r)) (hsnapshot : client.groupSnapshot = .ok s)
    (hg : Reached s (r.refs .group) g) (hno : Unresolved s g) (h : client.observe documentRef = .ok o) :
    o.policyKind = none ∧ o.localGroupRefs = [] ∧ o.localPrincipalRefs = [] := by
  unfold Client.observe at h
  simp only [hacl, bind, Except.bind] at h
  split at h
  · cases h
  · cases hreaders : client.readers r with
    | error e =>
      rw [hreaders] at h
      cases e <;> cases h <;> exact ⟨rfl, rfl, rfl⟩
    | ok readers =>
      rw [hreaders] at h
      obtain rfl := Except.ok.inj h
      have hne := readers_unresolved hsnapshot hreaders hg hno
      rw [grant, if_pos hne]
      exact ⟨rfl, rfl, rfl⟩

end Requests

/-! ## Exactness -/

/-- Flattening returns, what it returns is the image of the reached groups, a request is the
    set of its groups, and a reached group without a local group isolates the document. -/
structure ExactReachability (s : GroupSnapshot) (principal : Ref → Option Ref) (requested : List Ref) : Prop where
  returns : ∃ a, flattenFeishuGroups s (answering principal) requested = .ok a ∧ a.requestedGroupRefs = requested ∧
    Exact s principal requested a ∧
    ∀ requested', (∀ r, r ∈ requested' ↔ r ∈ requested) →
      flattenFeishuGroups s (answering principal) requested' = .ok { a with requestedGroupRefs := requested' }
  isolates : ∀ (client : Client) documentRef r o g, client.groupSnapshot = .ok s → client.observeAcl documentRef = .ok (.response r) →
    r.refs .group = requested → Reached s requested g → Unresolved s g → client.observe documentRef = .ok o →
    o.policyKind = none ∧ o.localGroupRefs = [] ∧ o.localPrincipalRefs = []

theorem flattening_exact_iff (s : GroupSnapshot) (principal : Ref → Option Ref) (requested : List Ref) :
    ExactReachability s principal requested ↔ Separate s requested := by
  obtain ⟨found, hfound⟩ := flatten_total s principal requested
  have hflat : flattenFeishuGroups s (answering principal) requested = .ok (found.artifact s requested) := by
    rw [flattenFeishuGroups, hfound]
    rfl
  constructor
  · rintro ⟨⟨a, ha, -, hexact, -⟩, -⟩
    obtain rfl : found.artifact s requested = a := Except.ok.inj (hflat.symm.trans ha)
    exact (exact_iff hfound).mp hexact
  · intro hseparate
    refine ⟨⟨_, hflat, rfl, (exact_iff hfound).mpr hseparate, ?_⟩, ?_⟩
    · intro requested' hsame
      obtain ⟨found', hfound'⟩ := flatten_total s principal requested'
      obtain rfl := found_eq hsame hfound hfound'
      rw [flattenFeishuGroups, hfound']
      rfl
    · intro client documentRef r o g hsnapshot hacl hrefs hg hno h
      exact observe_unresolved hacl hsnapshot (hrefs ▸ hg) hno h

namespace SharedLocalGroup

def ref (text : String) (h : EvidenceOctets.isOpaque 256 (.ofString text) = true := by decide) : Ref := ⟨.ofString text, h⟩

def group (external : Ref) : GroupNode where
  externalRef := external
  localGroupRef := some (ref "local-group:l")
  identityRefs := []
  childGroupRefs := []
  identities_sorted := List.Pairwise.nil.sortedLT
  children_sorted := List.Pairwise.nil.sortedLT

/-- Two groups that know nothing of each other have one local group. -/
def snapshot : GroupSnapshot where
  versionRef := ref "groups:v1"
  nodes := [group (ref "group:a"), group (ref "group:b")]
  observedAt := ⟨0⟩
  nodes_sorted := by
    refine List.Pairwise.sortedLT ?_
    decide

theorem reached_iff {g : Ref} : Reached snapshot [ref "group:a"] g ↔ g = ref "group:a" := by
  constructor
  · rintro ⟨r, hr, hg⟩
    obtain rfl := List.mem_singleton.mp hr
    rcases Relation.ReflTransGen.cases_head hg with heq | ⟨c, ⟨node, hnode, hc⟩, -⟩
    · exact heq.symm
    · obtain rfl : group (ref "group:a") = node := Option.some.inj hnode
      cases hc
  · rintro rfl
    exact ⟨_, List.mem_singleton.mpr rfl, .refl⟩

theorem unrequested_group_claimed :
    (∃ a, flattenFeishuGroups snapshot (answering fun _ => none) [ref "group:a"] = .ok a ∧
      (ref "group:b", ref "local-group:l") ∈ a.groupMappingClaims) ∧
    ¬ Reached snapshot [ref "group:a"] (ref "group:b") ∧
    ¬ ExactReachability snapshot (fun _ => none) [ref "group:a"] := by
  have hlocal : ∀ node ∈ snapshot.nodes, HasLocal snapshot node.externalRef (ref "local-group:l") := by
    intro node hnode
    refine ⟨node, node_of_mem hnode, ?_⟩
    simp only [snapshot, List.mem_cons, List.not_mem_nil, or_false] at hnode
    rcases hnode with rfl | rfl <;> rfl
  have ha := hlocal (group (ref "group:a")) (by simp [snapshot])
  have hb := hlocal (group (ref "group:b")) (by simp [snapshot])
  have hreached : Reached snapshot [ref "group:a"] (ref "group:a") := reached_iff.mpr rfl
  have hnot : ¬ Reached snapshot [ref "group:a"] (ref "group:b") := by
    rw [reached_iff]
    decide
  obtain ⟨found, hfound⟩ := flatten_total snapshot (fun _ => none) [ref "group:a"]
  have hflat : flattenFeishuGroups snapshot (answering fun _ => none) [ref "group:a"] =
      .ok (found.artifact snapshot [ref "group:a"]) := by
    rw [flattenFeishuGroups, hfound]
    rfl
  refine ⟨⟨_, hflat, mem_groupMappingClaims.mpr ⟨?_, hb⟩⟩, hnot, ?_⟩
  · rw [(requested_spec hfound).localGroups]
    exact .inr ⟨_, hreached, ha⟩
  · rintro ⟨⟨a, hartifact, -, hexact, -⟩, -⟩
    obtain rfl : found.artifact snapshot [ref "group:a"] = a := Except.ok.inj (hflat.symm.trans hartifact)
    exact hnot ((exact_iff hfound).mp hexact _ _ _ hreached ha hb)

end SharedLocalGroup

/-! ## Page references -/

/-- The prior text of the second call goes on with `s`, and the checkpoint of the first
    starts with it. -/
def Shifted (prior : Option Ref) (next : Ref) (prior' : Option Ref) (next' : Ref) : Prop :=
  ∃ s, priorText prior' = priorText prior ++ s ∧ next.value = s ++ next'.value

/-- No surrogate, so that the tokens have a UTF-8. -/
def Encodable (prior : Option Ref) (next : Ref) : Prop :=
  (priorText prior).any Str.isSurrogate = false ∧ next.value.any Str.isSurrogate = false

theorem feishuPageBytes_eq {b : Binding} {prior : Option Ref} {next : Ref} {octets : List UInt8} :
    feishuPageBytes b prior next = some octets ↔ Encodable prior next ∧
      octets = b.organizationId.bytes ++ (b.sourceVersionId.bytes ++ (b.workerJobId.bytes ++ (priorText prior ++ next.value).utf8)) := by
  simp only [feishuPageBytes, Str.utf8Strict, Encodable, Str.utf8_append, Option.bind_eq_bind, Option.pure_def]
  cases hp : (priorText prior).any Str.isSurrogate <;> cases hn : next.value.any Str.isSurrogate <;> simp [eq_comm]

/-- Two texts written one after the other are told apart but for where the first ends. -/
theorem append_eq_iff_shifted {prior prior' : Option Ref} {next next' : Ref} :
    priorText prior ++ next.value = priorText prior' ++ next'.value ↔
      Shifted prior next prior' next' ∨ Shifted prior' next' prior next := by
  rw [List.append_eq_append_iff]
  exact Iff.rfl

theorem page_octets_eq_iff {b b' : Binding} {prior prior' : Option Ref} {next next' : Ref} :
    (∃ octets, feishuPageBytes b prior next = some octets ∧ feishuPageBytes b' prior' next' = some octets) ↔
      b = b' ∧ Encodable prior next ∧ Encodable prior' next' ∧ (Shifted prior next prior' next' ∨ Shifted prior' next' prior next) := by
  rw [← append_eq_iff_shifted]
  constructor
  · rintro ⟨octets, h, h'⟩
    obtain ⟨he, rfl⟩ := feishuPageBytes_eq.mp h
    obtain ⟨he', heq⟩ := feishuPageBytes_eq.mp h'
    obtain ⟨ho, hrest⟩ := UUID.bytes_prefixCode _ _ _ _ trivial trivial heq
    obtain ⟨hs, hrest'⟩ := UUID.bytes_prefixCode _ _ _ _ trivial trivial hrest
    obtain ⟨hw, htext⟩ := UUID.bytes_prefixCode _ _ _ _ trivial trivial hrest'
    refine ⟨?_, he, he', Str.utf8_injective htext⟩
    cases b
    cases b'
    exact (Binding.mk.injEq ..).mpr ⟨ho, hs, hw⟩
  · rintro ⟨rfl, he, he', heq⟩
    exact ⟨_, feishuPageBytes_eq.mpr ⟨he, rfl⟩, feishuPageBytes_eq.mpr ⟨he', by rw [heq]⟩⟩

theorem page_octets_injective_iff (b b' : Binding) (prior prior' : Option Ref) (next next' : Ref) :
    (∀ octets, feishuPageBytes b prior next = some octets → feishuPageBytes b' prior' next' = some octets →
      b = b' ∧ prior = prior' ∧ next = next') ↔
      ¬ (b = b' ∧ (prior, next) ≠ (prior', next') ∧ Encodable prior next ∧ Encodable prior' next' ∧
        (Shifted prior next prior' next' ∨ Shifted prior' next' prior next)) := by
  constructor
  · rintro h ⟨hb, hne, hcollide⟩
    obtain ⟨octets, ho, ho'⟩ := page_octets_eq_iff.mpr ⟨hb, hcollide⟩
    obtain ⟨-, hp, hn⟩ := h octets ho ho'
    exact hne (Prod.ext hp hn)
  · intro h octets ho ho'
    obtain ⟨hb, hcollide⟩ := page_octets_eq_iff.mp ⟨octets, ho, ho'⟩
    refine ⟨hb, ?_⟩
    by_contra hne
    exact h ⟨hb, fun heq => hne (Prod.mk.inj heq), hcollide⟩

/-- An absent token is hashed as one that reads `initial`, and `1` before `12` as `11` before `2`. -/
theorem pages_share_octets :
    let b : Binding := ⟨⟨1⟩, ⟨2⟩, ⟨3⟩⟩
    let one := SharedLocalGroup.ref "1"
    let two := SharedLocalGroup.ref "2"
    let eleven := SharedLocalGroup.ref "11"
    let twelve := SharedLocalGroup.ref "12"
    (feishuPageBytes b none two).isSome ∧ feishuPageBytes b none two = feishuPageBytes b (some (SharedLocalGroup.ref "initial")) two ∧
    (feishuPageBytes b (some one) twelve).isSome ∧ feishuPageBytes b (some one) twelve = feishuPageBytes b (some eleven) two ∧
    some one ≠ some eleven ∧ twelve ≠ two := by
  decide +kernel

end ContextEngine.Adapters.Feishu
