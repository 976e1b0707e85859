/-
  ContextEngine.Runtime.EvidenceOctets — what the Evidence digests hash, over every value that
  the constructors admit (`engine/runtime/evidence.py`).

  `Evidence` has references that are Lean strings; here they are `Str`s as the bodies are, lone
  surrogates included, as `_encode_text` takes them. A text is written after its length in eight octets, so it can be
  told where it ends, and a sequence of texts needs no count: field references stand between a
  fixed number of texts before them and a fixed number after them.

  Proved: the octets tell the function and its arguments (`evidence_octets_injective`).
-/

import ContextEngine.Python.Datetime
import ContextEngine.Runtime.Evidence

namespace ContextEngine.Runtime

open ContextEngine.Machine ContextEngine.Python

/-! ## Identifiers -/

theorem UUID.bytes_eq_bigEndian (u : UUID) : u.bytes = bigEndian 16 u.value.val := by
  simp [UUID.bytes, bigEndian, List.range_succ, Nat.div_div_eq_div_mul]

theorem UUID.bytes_injective {u v : UUID} (h : u.bytes = v.bytes) : u = v := by
  rw [u.bytes_eq_bigEndian, v.bytes_eq_bigEndian] at h
  have hvalue := bigEndian_injective 16 (u.value.isLt.trans_eq (by norm_num)) (v.value.isLt.trans_eq (by norm_num)) h
  cases u
  cases v
  exact congrArg UUID.mk (Fin.ext hvalue)

theorem UUID.length_bytes (u : UUID) : u.bytes.length = 16 := by simp [UUID.bytes]

theorem UUID.bytes_prefixCode : PrefixCode (fun _ => True) UUID.bytes :=
  .of_length (fun u _ => u.length_bytes) fun _ _ _ _ h => UUID.bytes_injective h

theorem UUID.framed_prefixCode : PrefixCode (fun _ => True) fun u : UUID => Str.lengthPrefix u.bytes :=
  Str.lengthPrefix_prefixCode.comp (fun u _ => by rw [u.length_bytes]; norm_num) fun _ _ _ _ h => UUID.bytes_injective h

namespace EvidenceOctets

/-! ## Admitted values -/

/-- Non-empty, of at most `limit` characters, none of them a space. -/
def isOpaque (limit : Nat) (s : Str) : Bool := !s.isEmpty && decide (s.length ≤ limit) && s.all (!Str.isspace ·)

structure Opaque (limit : Nat) where
  value : Str
  well_formed : isOpaque limit value = true

abbrev Ref := Opaque Checks.MAX_OPAQUE_REF_LENGTH

def MAX_OPAQUE_CAPABILITY_LENGTH : Nat := 4096

abbrev CitationOpenRef := Opaque MAX_OPAQUE_CAPABILITY_LENGTH

/-- A nonblank body whose length can be written. -/
structure Body where
  value : Str
  nonblank : value.blank = false
  framable : value.Framable

/-- An aware UTC `datetime`, as the instant it denotes. -/
structure UtcDatetime where
  instant : Instant
  representable : instant.Representable

structure Candidate where
  organizationId : UUID
  sourceRef : Ref
  resourceRef : Ref
  revisionRef : Ref
  fragmentRef : Ref

structure Lineage where
  runRef : Ref
  principalRef : Ref
  purpose : Ref
  asOf : UtcDatetime
  decisionRef : Ref
  policySnapshotRef : Ref
  policyEpoch : Int
  sourceAclDecisionRef : Ref
  sourceAclProjectionRef : Ref
  sourceAclAsOf : UtcDatetime
  sourceAclFreshnessProfileRef : Ref
  epoch_range : 1 ≤ policyEpoch ∧ policyEpoch ≤ MAX_POLICY_EPOCH

/-- Closed lowercase identifiers, however many. -/
structure FieldRefs where
  values : List String
  identifiers : ∀ r ∈ values, isFieldRef r = true

/-- `ev_` and 64 hexadecimal digits. -/
structure EvidenceRef where
  value : String
  well_formed : requireEvidenceRef value = .ok ()

structure EvidenceValue where
  evidenceRef : EvidenceRef
  sourceRef : Ref
  resourceRef : Ref
  revisionRef : Ref
  fragmentRef : Ref
  projectedFieldRefs : FieldRefs
  lineage : Lineage
  citationOpenRef : Option CitationOpenRef

structure Block where
  evidenceRef : EvidenceRef
  body : Body

/-! ## What is hashed -/

/-- The values that `_lineage_canonical_bytes` and the projection digests spell. -/
def Lineage.texts (l : Lineage) : List Str :=
  [l.runRef.value, l.principalRef.value, l.purpose.value, .ofString (isoformat l.asOf.instant), l.decisionRef.value,
    l.policySnapshotRef.value, .ofString (toString l.policyEpoch), l.sourceAclDecisionRef.value, l.sourceAclProjectionRef.value,
    .ofString (isoformat l.sourceAclAsOf.instant), l.sourceAclFreshnessProfileRef.value]

def FieldRefs.texts (r : FieldRefs) : List Str := r.values.map .ofString

/-- The octets of one projected candidate under one lineage, in a domain. -/
def projectionBytes (domain : String) (c : Candidate) (body : Body) (fieldRefs : FieldRefs) (l : Lineage) : List UInt8 :=
  encode domain ++ Str.lengthPrefix c.organizationId.bytes ++
    ([c.sourceRef.value, c.resourceRef.value, c.revisionRef.value, c.fragmentRef.value, body.value] ++ l.texts ++
      fieldRefs.texts).flatMap Str.encodeText

/-- What one of the four digests is asked for. -/
inductive Hashed where
  /-- `_projection_integrity_digest`. -/
  | projection (c : Candidate) (body : Body) (fieldRefs : FieldRefs) (l : Lineage)
  /-- `_evidence_ref_for_projection`. -/
  | evidenceRef (c : Candidate) (body : Body) (fieldRefs : FieldRefs) (l : Lineage)
  /-- `_evidence_integrity_digest`. -/
  | evidence (e : EvidenceValue)
  /-- `_block_integrity_digest`. -/
  | block (b : Block)

def Hashed.bytes : Hashed → List UInt8
  | .projection c body fieldRefs l => projectionBytes "context-engine:authorized-projection:v4" c body fieldRefs l
  | .evidenceRef c body fieldRefs l => projectionBytes "context-engine:evidence-ref:v4" c body fieldRefs l
  | .evidence e =>
    encode "context-engine:evidence-integrity:v4" ++
      ([.ofString e.evidenceRef.value, e.sourceRef.value, e.resourceRef.value, e.revisionRef.value, e.fragmentRef.value] ++
        e.projectedFieldRefs.texts ++ ((e.citationOpenRef.map (·.value)).getD [] :: e.lineage.texts)).flatMap Str.encodeText
  | .block b =>
    encode "context-engine:package-block-integrity:v1" ++ [.ofString b.evidenceRef.value, b.body.value].flatMap Str.encodeText

/-! ## Texts that are written -/

theorem length_utf8_le (s : Str) : s.utf8.length ≤ 4 * s.length := by
  induction s with
  | nil => exact Nat.le_refl 0
  | cons c s ih =>
    have hchar : (Str.utf8Char c).length ≤ 4 := by
      simp only [Str.utf8Char]
      split_ifs <;> simp
    rw [Str.utf8, List.flatMap_cons, List.length_append, List.length_cons]
    rw [Str.utf8] at ih
    omega

theorem framable_of_length {s : Str} (h : s.length ≤ 5000) : s.Framable := by
  have := length_utf8_le s
  exact Nat.lt_of_le_of_lt (by omega : s.utf8.length ≤ 20000) (by norm_num)

theorem Opaque.length_le {limit : Nat} (r : Opaque limit) : r.value.length ≤ limit := by
  have h := r.well_formed
  simp only [isOpaque, Bool.and_eq_true, decide_eq_true_eq] at h
  exact h.1.2

theorem Opaque.ne_nil {limit : Nat} (r : Opaque limit) : r.value ≠ [] := by
  have h := r.well_formed
  simp only [isOpaque, Bool.and_eq_true, Bool.not_eq_true', List.isEmpty_eq_false_iff] at h
  exact h.1.1

theorem Opaque.ext {limit : Nat} {r r' : Opaque limit} (h : r.value = r'.value) : r = r' := by
  cases r
  cases r'
  cases h
  rfl

theorem Ref.framable (r : Ref) : r.value.Framable := framable_of_length (r.length_le.trans (by decide))

theorem length_ofString (s : String) : (Str.ofString s).length = s.toList.length := List.length_map _

/-- Dates and numbers are short. -/
theorem isoformat_framable (t : UtcDatetime) : (Str.ofString (isoformat t.instant)).Framable := by
  obtain ⟨⟨micros⟩, h0, h1⟩ := t
  dsimp only at h0 h1
  have hdate := civil_range (micros / 1000000 / 86400) (by omega) (by omega)
  refine framable_of_length ?_
  simp only [length_ofString, isoformat, String.toList_append, List.length_append]
  rw [length_padded hdate.1.1 (by decide) hdate.1.2, length_padded hdate.2.1.1 (by decide) hdate.2.1.2,
    length_padded hdate.2.2.1 (by decide) hdate.2.2.2, length_padded (by omega) (by decide) (by omega),
    length_padded (by omega) (by decide) (by omega), length_padded (by omega) (by decide) (by omega),
    length_padded (by omega) (by decide) (by omega)]
  decide

theorem toList_epoch {n : Int} (h : 1 ≤ n) : (toString n).toList = Nat.toDigits 10 n.toNat := by
  obtain ⟨k, rfl⟩ := Int.eq_ofNat_of_zero_le (by omega : 0 ≤ n)
  exact Nat.toList_repr

theorem epoch_framable (l : Lineage) : (Str.ofString (toString l.policyEpoch)).Framable := by
  obtain ⟨hlow, hhigh⟩ := l.epoch_range
  refine framable_of_length ?_
  rw [length_ofString, toList_epoch hlow]
  refine ((Nat.length_toDigits_le_iff (by decide) (by decide)).mpr ?_ : _ ≤ 19).trans (by decide)
  have : MAX_POLICY_EPOCH < 10 ^ 19 := by decide
  omega

theorem epoch_injective {n m : Int} (hn : 1 ≤ n) (hm : 1 ≤ m) (h : toString n = toString m) : n = m := by
  have hdigits : Nat.toDigits 10 n.toNat = Nat.toDigits 10 m.toNat := by rw [← toList_epoch hn, ← toList_epoch hm, h]
  have hvalue := congrArg (Nat.ofDigitChars 10 · 0) hdigits
  simp only [Nat.ofDigitChars_ten_toDigits] at hvalue
  omega

theorem evidenceRef_framable (r : EvidenceRef) : (Str.ofString r.value).Framable := by
  have h := r.well_formed
  unfold requireEvidenceRef at h
  obtain ⟨_, hformat, -⟩ := Checks.bind_ok h
  have hlength := Checks.ensure_ok hformat
  simp only [Bool.and_eq_true, beq_iff_eq] at hlength
  exact framable_of_length (by rw [length_ofString, hlength.1]; decide)

theorem fieldRefs_framable (r : FieldRefs) : ∀ s ∈ r.texts, s.Framable := by
  intro s hs
  obtain ⟨ref, href, rfl⟩ := List.mem_map.mp hs
  have hidentifier := r.identifiers ref href
  unfold isFieldRef isIdentifier at hidentifier
  refine framable_of_length ?_
  rw [length_ofString]
  split at hidentifier
  · cases hidentifier
  · rename_i c cs heq
    simp only [Bool.and_eq_true, decide_eq_true_eq] at hidentifier
    rw [heq]
    exact hidentifier.1.1.trans (by decide)

theorem lineage_framable (l : Lineage) : ∀ s ∈ l.texts, s.Framable := by
  simp only [Lineage.texts, List.forall_mem_cons, Ref.framable, isoformat_framable, epoch_framable, true_and]
  simp

/-! ## Reading back -/

theorem length_lineage_texts (l : Lineage) : l.texts.length = 11 := rfl

theorem fieldRefs_texts_injective {r r' : FieldRefs} (h : r.texts = r'.texts) : r = r' := by
  obtain ⟨values, _⟩ := r
  obtain ⟨values', _⟩ := r'
  obtain rfl : values = values' := List.map_injective_iff.mpr Str.ofString_injective h
  rfl

theorem utc_ext {t t' : UtcDatetime} (h : isoformat t.instant = isoformat t'.instant) : t = t' := by
  have hinstant := isoformat_injective t.representable t'.representable h
  cases t
  cases t'
  cases hinstant
  rfl

/-- The eleven texts of a lineage say all of it. -/
theorem lineage_texts_injective {l l' : Lineage} (h : l.texts = l'.texts) : l = l' := by
  simp only [Lineage.texts, List.cons.injEq, and_true] at h
  obtain ⟨hrun, hprincipal, hpurpose, hasOf, hdecision, hsnapshot, hepoch, haclDecision, haclProjection, haclAsOf, hfreshness⟩ := h
  have hasOf := utc_ext (Str.ofString_injective hasOf)
  have haclAsOf := utc_ext (Str.ofString_injective haclAsOf)
  have hepoch := epoch_injective l.epoch_range.1 l'.epoch_range.1 (Str.ofString_injective hepoch)
  cases l
  cases l'
  simp only [Lineage.mk.injEq]
  exact ⟨Opaque.ext hrun, Opaque.ext hprincipal, Opaque.ext hpurpose, hasOf, Opaque.ext hdecision, Opaque.ext hsnapshot, hepoch,
    Opaque.ext haclDecision, Opaque.ext haclProjection, haclAsOf, Opaque.ext hfreshness⟩

theorem candidate_ext {c c' : Candidate} (ho : c.organizationId = c'.organizationId) (hs : c.sourceRef.value = c'.sourceRef.value)
    (hr : c.resourceRef.value = c'.resourceRef.value) (hv : c.revisionRef.value = c'.revisionRef.value)
    (hf : c.fragmentRef.value = c'.fragmentRef.value) : c = c' := by
  cases c
  cases c'
  simp only [Candidate.mk.injEq]
  exact ⟨ho, Opaque.ext hs, Opaque.ext hr, Opaque.ext hv, Opaque.ext hf⟩

theorem body_ext {b b' : Body} (h : b.value = b'.value) : b = b' := by
  cases b
  cases b'
  cases h
  rfl

theorem evidenceRef_ext {r r' : EvidenceRef} (h : Str.ofString r.value = Str.ofString r'.value) : r = r' := by
  have hvalue := Str.ofString_injective h
  cases r
  cases r'
  cases hvalue
  rfl

/-- An absent citation is the empty text, which no citation is. -/
theorem citation_injective {c c' : Option CitationOpenRef}
    (h : (c.map (·.value)).getD [] = (c'.map (·.value)).getD []) : c = c' := by
  cases c with
  | none =>
    cases c' with
    | none => rfl
    | some r => exact absurd h.symm r.ne_nil
  | some r =>
    cases c' with
    | none => exact absurd h r.ne_nil
    | some r' => exact congrArg some (Opaque.ext h)

/-- Framed texts are read back from their octets. -/
theorem texts_injective {as bs : List Str} (ha : ∀ s ∈ as, s.Framable) (hb : ∀ s ∈ bs, s.Framable)
    (h : as.flatMap Str.encodeText = bs.flatMap Str.encodeText) : as = bs :=
  Str.encodeText_prefixCode.flatMap_injective (fun s _ => s.encodeText_ne_nil) ha hb h

/-- Sixteen texts come before the field references of a projection. -/
theorem projectionBytes_injective {domain : String} {c c' : Candidate} {body body' : Body} {refs refs' : FieldRefs} {l l' : Lineage}
    (h : projectionBytes domain c body refs l = projectionBytes domain c' body' refs' l') :
    c = c' ∧ body = body' ∧ refs = refs' ∧ l = l' := by
  have hframable : ∀ (c : Candidate) (body : Body) (refs : FieldRefs) (l : Lineage),
      ∀ s ∈ [c.sourceRef.value, c.resourceRef.value, c.revisionRef.value, c.fragmentRef.value, body.value] ++ l.texts ++ refs.texts,
        s.Framable := by
    intro c body refs l s hs
    rcases List.mem_append.mp hs with hs | hs
    · rcases List.mem_append.mp hs with hs | hs
      · simp only [List.mem_cons, List.not_mem_nil, or_false] at hs
        rcases hs with rfl | rfl | rfl | rfl | rfl
        · exact c.sourceRef.framable
        · exact c.resourceRef.framable
        · exact c.revisionRef.framable
        · exact c.fragmentRef.framable
        · exact body.framable
      · exact lineage_framable l s hs
    · exact fieldRefs_framable refs s hs
  simp only [projectionBytes, List.append_assoc (encode domain)] at h
  obtain ⟨horganization, h⟩ := UUID.framed_prefixCode _ _ _ _ trivial trivial (List.append_cancel_left h)
  have htexts := texts_injective (hframable c body refs l) (hframable c' body' refs' l') h
  obtain ⟨hfixed, hrefs⟩ := List.append_inj htexts (by simp only [List.length_append, List.length_cons, length_lineage_texts])
  obtain ⟨hcandidate, hlineage⟩ := List.append_inj hfixed (by simp only [List.length_cons])
  simp only [List.cons.injEq, and_true] at hcandidate
  obtain ⟨hs, hr, hv, hf, hbody⟩ := hcandidate
  exact ⟨candidate_ext horganization hs hr hv hf, body_ext hbody, fieldRefs_texts_injective hrefs, lineage_texts_injective hlineage⟩

/-- Five texts come before the field references of an Evidence, and twelve after them. -/
theorem evidenceBytes_injective {e e' : EvidenceValue} (h : (Hashed.evidence e).bytes = (Hashed.evidence e').bytes) : e = e' := by
  have hframable : ∀ e : EvidenceValue, ∀ s ∈ [.ofString e.evidenceRef.value, e.sourceRef.value, e.resourceRef.value,
      e.revisionRef.value, e.fragmentRef.value] ++ e.projectedFieldRefs.texts ++
        ((e.citationOpenRef.map (·.value)).getD [] :: e.lineage.texts), s.Framable := by
    intro e s hs
    rcases List.mem_append.mp hs with hs | hs
    · rcases List.mem_append.mp hs with hs | hs
      · simp only [List.mem_cons, List.not_mem_nil, or_false] at hs
        rcases hs with rfl | rfl | rfl | rfl | rfl
        · exact evidenceRef_framable e.evidenceRef
        · exact e.sourceRef.framable
        · exact e.resourceRef.framable
        · exact e.revisionRef.framable
        · exact e.fragmentRef.framable
      · exact fieldRefs_framable e.projectedFieldRefs s hs
    · rcases List.mem_cons.mp hs with rfl | hs
      · cases e.citationOpenRef with
        | none => exact framable_of_length (by decide)
        | some r => exact framable_of_length (r.length_le.trans (by decide))
      · exact lineage_framable e.lineage s hs
  have htexts := texts_injective (hframable e) (hframable e') (List.append_cancel_left h)
  obtain ⟨hbefore, hafter⟩ := List.append_inj' htexts (by simp only [List.length_cons, length_lineage_texts])
  obtain ⟨hfixed, hrefs⟩ := List.append_inj hbefore (by simp only [List.length_cons])
  obtain ⟨hcitation, hlineage⟩ := List.cons.inj hafter
  simp only [List.cons.injEq, and_true] at hfixed
  obtain ⟨href, hs, hr, hv, hf⟩ := hfixed
  cases e
  cases e'
  simp only [EvidenceValue.mk.injEq]
  exact ⟨evidenceRef_ext href, Opaque.ext hs, Opaque.ext hr, Opaque.ext hv, Opaque.ext hf, fieldRefs_texts_injective hrefs,
    lineage_texts_injective hlineage, citation_injective hcitation⟩

theorem blockBytes_injective {b b' : Block} (h : (Hashed.block b).bytes = (Hashed.block b').bytes) : b = b' := by
  have hframable : ∀ b : Block, ∀ s ∈ [.ofString b.evidenceRef.value, b.body.value], s.Framable := by
    intro b s hs
    simp only [List.mem_cons, List.not_mem_nil, or_false] at hs
    rcases hs with rfl | rfl
    · exact evidenceRef_framable b.evidenceRef
    · exact b.body.framable
  have htexts := texts_injective (hframable b) (hframable b') (List.append_cancel_left h)
  simp only [List.cons.injEq, and_true] at htexts
  cases b
  cases b'
  simp only [Block.mk.injEq]
  exact ⟨evidenceRef_ext htexts.1, body_ext htexts.2⟩

/-- Texts that differ within their first `k` octets start no common text. -/
theorem domains_differ {d d' x y : List UInt8} (k : Nat) (hd : k ≤ d.length) (hd' : k ≤ d'.length) (h : d.take k ≠ d'.take k) :
    d ++ x ≠ d' ++ y := by
  intro heq
  have htake := congrArg (List.take k) heq
  rw [List.take_append_of_le_length hd, List.take_append_of_le_length hd'] at htake
  exact h htake

/-- The domain that a digest starts with. -/
def Hashed.domain : Hashed → List UInt8
  | .projection .. => encode "context-engine:authorized-projection:v4"
  | .evidenceRef .. => encode "context-engine:evidence-ref:v4"
  | .evidence _ => encode "context-engine:evidence-integrity:v4"
  | .block _ => encode "context-engine:package-block-integrity:v1"

theorem bytes_eq_domain (x : Hashed) : ∃ rest, x.bytes = x.domain ++ rest := by
  cases x with
  | projection c body refs l => exact ⟨_, List.append_assoc _ _ _⟩
  | evidenceRef c body refs l => exact ⟨_, List.append_assoc _ _ _⟩
  | evidence e => exact ⟨_, rfl⟩
  | block b => exact ⟨_, rfl⟩

/-- The four domains differ within twenty-five octets. -/
theorem domain_eq_of_bytes {x y : Hashed} (h : x.bytes = y.bytes) : x.domain.take 25 = y.domain.take 25 := by
  have hlength : ∀ z : Hashed, 25 ≤ z.domain.length := by
    intro z
    cases z <;> simp only [Hashed.domain] <;> decide +kernel
  obtain ⟨rest, hx⟩ := bytes_eq_domain x
  obtain ⟨rest', hy⟩ := bytes_eq_domain y
  by_contra hne
  rw [hx, hy] at h
  exact domains_differ 25 (hlength x) (hlength y) hne h

/-- Equal octets were asked for by the same digest, of the same values. -/
theorem evidence_octets_injective (x y : Hashed) : x.bytes = y.bytes ↔ x = y := by
  refine ⟨?_, fun h => congrArg Hashed.bytes h⟩
  intro h
  have hdomain := domain_eq_of_bytes h
  cases x with
  | projection c body refs l =>
    cases y with
    | projection c' body' refs' l' =>
      obtain ⟨rfl, rfl, rfl, rfl⟩ := projectionBytes_injective h
      rfl
    | evidenceRef | evidence | block => exact absurd hdomain (by simp only [Hashed.domain]; decide +kernel)
  | evidenceRef c body refs l =>
    cases y with
    | evidenceRef c' body' refs' l' =>
      obtain ⟨rfl, rfl, rfl, rfl⟩ := projectionBytes_injective h
      rfl
    | projection | evidence | block => exact absurd hdomain (by simp only [Hashed.domain]; decide +kernel)
  | evidence e =>
    cases y with
    | evidence e' => exact congrArg _ (evidenceBytes_injective h)
    | projection | evidenceRef | block => exact absurd hdomain (by simp only [Hashed.domain]; decide +kernel)
  | block b =>
    cases y with
    | block b' => exact congrArg _ (blockBytes_injective h)
    | projection | evidenceRef | evidence => exact absurd hdomain (by simp only [Hashed.domain]; decide +kernel)

/-! ## The Kernel's projections -/

theorem eightOctets_eq (n : Nat) : (List.range 8).reverse.map (fun i => UInt8.ofNat (n / 256 ^ i)) = bigEndian 8 n := by
  simp [bigEndian, List.range_succ, Nat.div_div_eq_div_mul]

theorem lengthPrefix_eq (b : List UInt8) : lengthPrefix b = Str.lengthPrefix b := by
  rw [lengthPrefix, Str.lengthPrefix, eightOctets_eq]

theorem encodeText_eq (s : String) : encodeText s = Str.encodeText (.ofString s) := by
  rw [encodeText, Str.encodeText, lengthPrefix_eq, Str.encode_eq_utf8]

/-- A reference of the Kernel, as a Python string. -/
def Ref.ofOpaqueRef (r : Checks.OpaqueRef) : Ref := ⟨.ofString r.value, by
  have h := r.well_formed
  simp only [Checks.isOpaqueRef, Bool.and_eq_true, decide_eq_true_eq] at h
  simp only [isOpaque, Bool.and_eq_true, decide_eq_true_eq, length_ofString]
  refine ⟨⟨?_, h.1.2⟩, ?_⟩
  · rw [Str.ofString, List.isEmpty_map]
    exact h.1.1
  · rw [Str.ofString, List.all_map]
    exact h.2⟩

def Candidate.ofCandidateRef (c : CandidateRef) : Candidate :=
  ⟨c.organizationId, .ofOpaqueRef c.sourceRef, .ofOpaqueRef c.resourceRef, .ofOpaqueRef c.revisionRef, .ofOpaqueRef c.fragmentRef⟩

def Lineage.ofEvidenceLineage (l : EvidenceLineage) (h : l.asOf.Representable) (h' : l.sourceAclAsOf.Representable) : Lineage :=
  ⟨.ofOpaqueRef l.runRef, .ofOpaqueRef l.principalRef, .ofOpaqueRef l.purpose, ⟨l.asOf, h⟩, .ofOpaqueRef l.decisionRef,
    .ofOpaqueRef l.policySnapshotRef, l.policyEpoch, .ofOpaqueRef l.sourceAclDecisionRef, .ofOpaqueRef l.sourceAclProjectionRef,
    ⟨l.sourceAclAsOf, h'⟩, .ofOpaqueRef l.sourceAclFreshnessProfileRef, l.epoch_range⟩

/-- What the Kernel's model hashes is what is hashed here. -/
theorem projectionMaterial_eq {domain : String} {body : Str} {c : CandidateRef} {refs : List String} {l : EvidenceLineage}
    (hrefs : ∀ r ∈ refs, isFieldRef r = true) (hbody : body.blank = false) (hlength : body.Framable)
    (h : l.asOf.Representable) (h' : l.sourceAclAsOf.Representable) :
    projectionMaterial cpython domain c body refs l =
      projectionBytes domain (.ofCandidateRef c) ⟨body, hbody, hlength⟩ ⟨refs, hrefs⟩ (.ofEvidenceLineage l h h') := by
  have htexts : ∀ ss : List String, ss.flatMap encodeText = (ss.map Str.ofString).flatMap Str.encodeText := by
    intro ss
    rw [List.flatMap_map]
    exact congrArg (fun f => ss.flatMap f) (funext encodeText_eq)
  have hbodies : Str.encodeText body = [body].flatMap Str.encodeText := (List.append_nil _).symm
  rw [projectionMaterial, lengthPrefix_eq, htexts, htexts, htexts, hbodies, projectionBytes]
  simp only [List.append_assoc, ← List.flatMap_append]
  rfl

end EvidenceOctets

end ContextEngine.Runtime
