/-
  ContextEngine.Runtime.ScopeOracle — the scope oracle over every Python string
  (`engine/runtime/scope.py`): what it computes, and that its digest identifies it.

  `Scope` has references that are Lean strings, which is all that the Kernel hands over. Here
  they are `Str`s, lone surrogates included, as `_canonical_target_bytes` takes them.

  Proved:
  (1) The effective scope is the intersection, narrowed (`mem_computeEffectiveScope`).
  (2) The octets that are hashed tell two sets of targets apart (`effectiveScopeBytes_injective`),
      whatever order a set is iterated in: `sorted` sees the bag of its encoded targets.
  (3) Both together (`effective_scope_exact_and_identified`), and that `Scope` has these octets
      for its own targets (`effectiveScopeDigest_ofScopeTarget`).
-/

import ContextEngine.Runtime.EvidenceOctets
import ContextEngine.Runtime.Scope

namespace ContextEngine.Runtime.ScopeOracle

open ContextEngine.Machine ContextEngine.Python

/-! ## The oracle -/

/-- `ScopeTarget`. -/
structure Target where
  organizationId : UUID
  sourceRef : Str
  resourceRef : Option Str
  deriving DecidableEq

/-- A trusted operand; `none` is `MISSING_TRUSTED_SCOPE`. -/
abbrev Operand := Option (Finset Target)

structure Operands where
  organizationBoundary : Operand
  membershipRights : Operand
  principalGrants : Operand
  agentCeiling : Operand
  sourceNativeAcl : Operand
  resourceAcl : Operand
  purposePolicy : Operand

/-- `fields(trusted_operands)`. -/
def Operands.fields (o : Operands) : List Operand :=
  [o.organizationBoundary, o.membershipRights, o.principalGrants, o.agentCeiling, o.sourceNativeAcl, o.resourceAcl, o.purposePolicy]

structure Narrowing where
  sourceRefs : Option (List Str)
  resourceRefs : Option (List Str)

/-- `_canonical_target_bytes`. -/
def canonicalTargetBytes (t : Target) : List UInt8 :=
  Str.lengthPrefix t.organizationId.bytes ++ Str.encodeText t.sourceRef ++
    match t.resourceRef with
    | none => [0]
    | some r => 1 :: Str.encodeText r

/-- What `_effective_scope_digest` hashes. -/
def effectiveScopeBytes (targets : Finset Target) : List UInt8 :=
  let encoded := sortedBytes (targets.val.map canonicalTargetBytes)
  encode "context-engine:effective-scope:v1" ++ bigEndian 8 encoded.length ++ encoded.flatMap Str.lengthPrefix

structure Effective where
  targets : Finset Target
  digest : String

def Effective.of (lib : Stdlib) (targets : Finset Target) : Effective :=
  ⟨targets, (lib.sha256 (effectiveScopeBytes targets)).hexdigest⟩

/-- The filters that the request asks for, the sources' first. -/
def narrow (narrowing : Option Narrowing) (targets : Finset Target) : Finset Target :=
  match narrowing with
  | none => targets
  | some n =>
    let targets := match n.sourceRefs with
      | none => targets
      | some refs => targets.filter fun t => t.sourceRef ∈ refs
    match n.resourceRefs with
    | none => targets
    | some refs => targets.filter fun t => t.resourceRef ∈ refs.map some

/-- `compute_effective_scope`. -/
def computeEffectiveScope (lib : Stdlib) (operands : Operands) (narrowing : Option Narrowing) : Effective :=
  if operands.fields.any Option.isNone then .of lib ∅
  else
    match operands.fields.filterMap id with
    | [] => .of lib ∅
    | first :: rest => .of lib (narrow narrowing (rest.foldl (· ∩ ·) first))

/-! ## The intersection -/

/-- What the request lets through. -/
def Admits (narrowing : Option Narrowing) (t : Target) : Prop :=
  ∀ n, narrowing = some n → (∀ refs, n.sourceRefs = some refs → t.sourceRef ∈ refs) ∧
    ∀ refs, n.resourceRefs = some refs → ∃ r ∈ refs, t.resourceRef = some r

theorem mem_narrow {narrowing : Option Narrowing} {targets : Finset Target} {t : Target} :
    t ∈ narrow narrowing targets ↔ t ∈ targets ∧ Admits narrowing t := by
  unfold narrow Admits
  cases narrowing with
  | none => simp
  | some n =>
    obtain ⟨sources, resources⟩ := n
    cases sources <;> cases resources <;> simp [and_assoc, eq_comm]

theorem mem_foldl_inter {scopes : List (Finset Target)} {first : Finset Target} {t : Target} :
    t ∈ scopes.foldl (· ∩ ·) first ↔ t ∈ first ∧ ∀ s ∈ scopes, t ∈ s := by
  induction scopes generalizing first with
  | nil => simp
  | cons s scopes ih => simp only [List.foldl_cons, ih, Finset.mem_inter, List.forall_mem_cons, and_assoc]

variable {lib : Stdlib} {operands : Operands} {narrowing : Option Narrowing} {t : Target}

theorem any_isNone_iff {os : List Operand} : os.any Option.isNone = true ↔ none ∈ os := by
  simp

/-- A target is in scope when every operand is there and has it, and the request admits it. -/
theorem mem_computeEffectiveScope : t ∈ (computeEffectiveScope lib operands narrowing).targets ↔
    (∀ o ∈ operands.fields, ∃ s, o = some s ∧ t ∈ s) ∧ Admits narrowing t := by
  unfold computeEffectiveScope
  split
  · rename_i hmissing
    have hnone : none ∈ operands.fields := any_isNone_iff.mp hmissing
    constructor
    · intro h
      exact absurd h (Finset.notMem_empty t)
    · rintro ⟨hall, -⟩
      obtain ⟨s, hs, -⟩ := hall none hnone
      cases hs
  · rename_i hpresent
    have hsome : ∀ o ∈ operands.fields, ∃ s, o = some s := by
      intro o ho
      cases o with
      | none => exact absurd (any_isNone_iff.mpr ho) hpresent
      | some s => exact ⟨s, rfl⟩
    have hall : (∀ o ∈ operands.fields, ∃ s, o = some s ∧ t ∈ s) ↔ ∀ s ∈ operands.fields.filterMap id, t ∈ s := by
      constructor
      · intro h s hs
        obtain ⟨o, ho, heq⟩ := List.mem_filterMap.mp hs
        obtain ⟨s', hs', ht⟩ := h o ho
        rw [id_eq, hs'] at heq
        exact Option.some.inj heq ▸ ht
      · intro h o ho
        obtain ⟨s, rfl⟩ := hsome o ho
        exact ⟨s, rfl, h s (List.mem_filterMap.mpr ⟨some s, ho, rfl⟩)⟩
    rw [hall]
    split
    · rename_i hnil
      obtain ⟨s, hs⟩ := hsome operands.organizationBoundary List.mem_cons_self
      have hmem : s ∈ operands.fields.filterMap id := List.mem_filterMap.mpr ⟨some s, hs ▸ List.mem_cons_self, rfl⟩
      rw [hnil] at hmem
      cases hmem
    · rename_i first rest heq
      rw [heq]
      show t ∈ narrow narrowing _ ↔ _
      rw [mem_narrow, mem_foldl_inter, List.forall_mem_cons]

/-- An operand that lets more through, if it is there. -/
def Wider (o o' : Operand) : Prop := ∀ s, o = some s → ∃ s', o' = some s' ∧ s ⊆ s'

theorem exists_of_forall₂ {α : Type} {R : α → α → Prop} {as bs : List α} (h : List.Forall₂ R as bs) {b : α} (hb : b ∈ bs) :
    ∃ a ∈ as, R a b := by
  induction h with
  | nil => cases hb
  | cons hab _ ih =>
    rcases List.mem_cons.mp hb with rfl | hb
    · exact ⟨_, List.mem_cons_self, hab⟩
    · obtain ⟨a, ha, hR⟩ := ih hb
      exact ⟨a, List.mem_cons_of_mem _ ha, hR⟩

/-! ## The digest -/

/-- The octets of a target whose references are short enough to have their length written. -/
theorem canonicalTargetBytes_injective {t t' : Target} (ht : (canonicalTargetBytes t).length < 2 ^ 64)
    (ht' : (canonicalTargetBytes t').length < 2 ^ 64) (h : canonicalTargetBytes t = canonicalTargetBytes t') : t = t' := by
  obtain ⟨organizationId, sourceRef, resourceRef⟩ := t
  obtain ⟨organizationId', sourceRef', resourceRef'⟩ := t'
  have hframable : ∀ (u : UUID) (s : Str) (r : List UInt8), (Str.lengthPrefix u.bytes ++ Str.encodeText s ++ r).length < 2 ^ 64 →
      s.Framable := by
    intro u s r hlen
    simp only [Str.encodeText, Str.lengthPrefix, List.length_append] at hlen
    exact Nat.lt_of_le_of_lt (by omega) hlen
  have hresource : ∀ (u : UUID) (s r : Str), (Str.lengthPrefix u.bytes ++ Str.encodeText s ++ 1 :: Str.encodeText r).length < 2 ^ 64 →
      r.Framable := by
    intro u s r hlen
    simp only [Str.encodeText, Str.lengthPrefix, List.length_append, List.length_cons] at hlen
    exact Nat.lt_of_le_of_lt (by omega) hlen
  have hs := hframable _ _ _ ht
  have hs' := hframable _ _ _ ht'
  rw [canonicalTargetBytes, canonicalTargetBytes, List.append_assoc, List.append_assoc] at h
  obtain ⟨rfl, h⟩ := UUID.framed_prefixCode organizationId organizationId' _ _ trivial trivial h
  obtain ⟨rfl, h⟩ := Str.encodeText_prefixCode _ _ _ _ hs hs' h
  cases resourceRef with
  | none =>
    cases resourceRef' with
    | none => rfl
    | some r' => exact absurd (List.cons.inj h).1 (by decide)
  | some r =>
    cases resourceRef' with
    | none => exact absurd (List.cons.inj h).1 (by decide)
    | some r' =>
      have hr := Str.encodeText_prefixCode.injective (hresource _ _ r ht) (hresource _ _ r' ht') (List.cons.inj h).2
      exact congrArg _ (congrArg some hr)

/-- Sorting loses nothing of a bag. -/
theorem coe_sortedBytes (bs : Multiset (List UInt8)) : (sortedBytes bs : Multiset (List UInt8)) = bs := by
  have hoctets : ∀ ns : Multiset (List Nat), (sortedOctets ns : Multiset (List Nat)) = ns := by
    intro ns
    induction ns using Quotient.inductionOn with
    | h l => exact Quotient.sound (List.perm_insertionSort _ _)
  have hback : ∀ b : List UInt8, (b.map UInt8.toNat).map UInt8.ofNat = b := by
    intro b
    rw [List.map_map]
    exact (List.map_congr_left fun x _ => UInt8.ofNat_toNat).trans (List.map_id b)
  rw [sortedBytes, ← Multiset.map_coe, hoctets, Multiset.map_map]
  exact (Multiset.map_congr rfl fun b _ => hback b).trans (Multiset.map_id bs)

theorem mem_sortedBytes {bs : Multiset (List UInt8)} {b : List UInt8} : b ∈ sortedBytes bs ↔ b ∈ bs := by
  rw [← Multiset.mem_coe, coe_sortedBytes]

theorem length_sortedBytes (bs : Multiset (List UInt8)) : (sortedBytes bs).length = bs.card := by
  rw [← Multiset.coe_card, coe_sortedBytes]

/-- Every length that the digest writes fits the eight octets it has for it. -/
structure Encodable (targets : Finset Target) : Prop where
  count : targets.card < 2 ^ 64
  targets : ∀ t ∈ targets, (canonicalTargetBytes t).length < 2 ^ 64

theorem effectiveScopeBytes_injective {a b : Finset Target} (ha : Encodable a) (hb : Encodable b)
    (h : effectiveScopeBytes a = effectiveScopeBytes b) : a = b := by
  have hcount : ∀ s : Finset Target, (sortedBytes (s.val.map canonicalTargetBytes)).length = s.card := by
    intro s
    rw [length_sortedBytes, Multiset.card_map]
    rfl
  have hlength : ∀ s, Encodable s → ∀ x ∈ sortedBytes (s.val.map canonicalTargetBytes), x.length < 2 ^ 64 := by
    intro s hs x hx
    obtain ⟨t, ht, rfl⟩ := Multiset.mem_map.mp (mem_sortedBytes.mp hx)
    exact hs.targets t ht
  simp only [effectiveScopeBytes, List.append_assoc] at h
  have h := List.append_cancel_left h
  obtain ⟨hlen, h⟩ := bigEndian_prefixCode 8 _ _ _ _ (by rw [hcount]; exact ha.count) (by rw [hcount]; exact hb.count) h
  have hsorted := Str.lengthPrefix_prefixCode.flatMap_injective (fun x _ => by simp [Str.lengthPrefix, bigEndian])
    (hlength a ha) (hlength b hb) h
  have hbags : a.val.map canonicalTargetBytes = b.val.map canonicalTargetBytes := by
    rw [← coe_sortedBytes (a.val.map canonicalTargetBytes), hsorted, coe_sortedBytes]
  ext t
  -- A target of one set is encoded in the other, by itself only.
  have hsub : ∀ c d : Finset Target, Encodable c → Encodable d → c.val.map canonicalTargetBytes = d.val.map canonicalTargetBytes →
      t ∈ c → t ∈ d := by
    intro c d hc hd heq ht
    have hmem : canonicalTargetBytes t ∈ d.val.map canonicalTargetBytes := heq ▸ Multiset.mem_map_of_mem _ ht
    obtain ⟨t', ht', hbytes⟩ := Multiset.mem_map.mp hmem
    exact canonicalTargetBytes_injective (hd.targets t' ht') (hc.targets t ht) hbytes ▸ ht'
  exact ⟨hsub a b ha hb hbags, hsub b a hb ha hbags.symm⟩

/-- The scope is the exact intersection, and no two scopes hash the same octets. -/
theorem effective_scope_exact_and_identified (lib : Stdlib) :
    (∀ operands narrowing, none ∈ operands.fields → (computeEffectiveScope lib operands narrowing).targets = ∅) ∧
      (∀ operands narrowing t, t ∈ (computeEffectiveScope lib operands narrowing).targets ↔
        (∀ o ∈ operands.fields, ∃ s, o = some s ∧ t ∈ s) ∧ Admits narrowing t) ∧
      (∀ operands narrowing s, some s ∈ operands.fields → (computeEffectiveScope lib operands narrowing).targets ⊆ s) ∧
      (∀ operands narrowing,
        (computeEffectiveScope lib operands narrowing).targets ⊆ (computeEffectiveScope lib operands none).targets) ∧
      (∀ operands n refs t, n.resourceRefs = some refs → t.resourceRef = none →
        t ∉ (computeEffectiveScope lib operands (some n)).targets) ∧
      (∀ operands operands' narrowing, List.Forall₂ Wider operands.fields operands'.fields →
        (computeEffectiveScope lib operands narrowing).targets ⊆ (computeEffectiveScope lib operands' narrowing).targets) ∧
      (∀ operands narrowing, (computeEffectiveScope lib operands narrowing).digest =
        (lib.sha256 (effectiveScopeBytes (computeEffectiveScope lib operands narrowing).targets)).hexdigest) ∧
      ∀ a b, Encodable a → Encodable b → (effectiveScopeBytes a = effectiveScopeBytes b ↔ a = b) := by
  refine ⟨?_, fun _ _ _ => mem_computeEffectiveScope, ?_, ?_, ?_, ?_, ?_, ?_⟩
  · intro operands narrowing hmissing
    refine Finset.eq_empty_of_forall_notMem fun t ht => ?_
    obtain ⟨s, hs, -⟩ := (mem_computeEffectiveScope.mp ht).1 none hmissing
    cases hs
  · intro operands narrowing s hs t ht
    obtain ⟨s', hs', hmem⟩ := (mem_computeEffectiveScope.mp ht).1 (some s) hs
    exact Option.some.inj hs' ▸ hmem
  · intro operands narrowing t ht
    refine mem_computeEffectiveScope.mpr ⟨(mem_computeEffectiveScope.mp ht).1, ?_⟩
    intro n hn
    cases hn
  · intro operands n refs t hrefs hwide ht
    obtain ⟨r, -, hr⟩ := ((mem_computeEffectiveScope.mp ht).2 n rfl).2 refs hrefs
    rw [hwide] at hr
    cases hr
  · intro operands operands' narrowing hwider t ht
    obtain ⟨hall, hadmits⟩ := mem_computeEffectiveScope.mp ht
    refine mem_computeEffectiveScope.mpr ⟨?_, hadmits⟩
    intro o' ho'
    obtain ⟨o, ho, how⟩ := exists_of_forall₂ hwider ho'
    obtain ⟨s, hs, hmem⟩ := hall o ho
    obtain ⟨s', hs', hsub⟩ := how s hs
    exact ⟨s', hs', hsub hmem⟩
  · intro operands narrowing
    unfold computeEffectiveScope
    split
    · rfl
    · split <;> rfl
  · intro a b ha hb
    exact ⟨effectiveScopeBytes_injective ha hb, fun h => congrArg effectiveScopeBytes h⟩

/-- Two sources, one of them named by a lone surrogate. -/
theorem effective_scope_tells_surrogate : Encodable {⟨.ofNat 1, [0xd800], none⟩} ∧ Encodable {⟨.ofNat 1, [0x61], none⟩} ∧
    effectiveScopeBytes {⟨.ofNat 1, [0xd800], none⟩} ≠ effectiveScopeBytes {⟨.ofNat 1, [0x61], none⟩} := by
  have hencodable : ∀ c : CodePoint, Encodable {⟨.ofNat 1, [c], none⟩} := by
    intro c
    refine ⟨by rw [Finset.card_singleton]; norm_num, ?_⟩
    intro t ht
    rw [Finset.mem_singleton.mp ht]
    have hchar := EvidenceOctets.length_utf8_le [c]
    simp only [canonicalTargetBytes, Str.encodeText, Str.lengthPrefix, List.length_append, length_bigEndian, UUID.length_bytes,
      List.length_singleton] at hchar ⊢
    exact Nat.lt_of_le_of_lt (by omega : _ ≤ 40) (by norm_num)
  refine ⟨hencodable _, hencodable _, ?_⟩
  obtain ⟨-, -, -, -, -, -, -, hidentified⟩ := effective_scope_exact_and_identified cpython
  rw [Ne, hidentified _ _ (hencodable _) (hencodable _), Finset.singleton_inj]
  decide

/-! ## The Kernel's scopes -/

/-- A target of the Kernel, with its references as Python strings. -/
def Target.ofScopeTarget (t : ScopeTarget) : Target := ⟨t.organizationId, .ofString t.sourceRef, t.resourceRef.map .ofString⟩

theorem ofScopeTarget_injective : Function.Injective Target.ofScopeTarget := by
  rintro ⟨o, s, r⟩ ⟨o', s', r'⟩ h
  simp only [Target.ofScopeTarget, Target.mk.injEq] at h
  obtain ⟨rfl, hs, hr⟩ := h
  rw [Str.ofString_injective hs, Option.map_injective Str.ofString_injective hr]

theorem canonicalTargetBytes_ofScopeTarget (t : ScopeTarget) :
    canonicalTargetBytes (.ofScopeTarget t) = Runtime.canonicalTargetBytes t := by
  obtain ⟨o, s, r⟩ := t
  cases r <;>
    simp only [canonicalTargetBytes, Target.ofScopeTarget, Runtime.canonicalTargetBytes, Option.map_none, Option.map_some,
      EvidenceOctets.lengthPrefix_eq, Str.encodeText, Str.encode_eq_utf8]

/-- The Kernel's model hashes the octets of this one. -/
theorem effectiveScopeDigest_ofScopeTarget (targets : Finset ScopeTarget) : effectiveScopeDigest lib targets =
    (lib.sha256 (effectiveScopeBytes (targets.map ⟨.ofScopeTarget, ofScopeTarget_injective⟩))).hexdigest := by
  have hencoded : (targets.map ⟨.ofScopeTarget, ofScopeTarget_injective⟩).val.map canonicalTargetBytes =
      targets.val.map Runtime.canonicalTargetBytes := by
    rw [Finset.map_val, Multiset.map_map]
    exact Multiset.map_congr rfl fun t _ => canonicalTargetBytes_ofScopeTarget t
  rw [effectiveScopeDigest, effectiveScopeBytes, hencoded]
  simp only [funext EvidenceOctets.lengthPrefix_eq, EvidenceOctets.eightOctets_eq]

end ContextEngine.Runtime.ScopeOracle
