/-
  ContextEngine.Runtime.FieldRendering — structured fields rendered to a body, over every
  Python string (`MaterializedFragmentProjection.rendered_body`).

  A field is a line `ref=value`, with the value's backslashes, equals signs and line breaks
  escaped. The decoder here is not in the source: that there is one is what makes the
  rendering unambiguous.

  Proved: a rendered body has one line for each field (`splitlines_renderedBody`), and the
  decoder gives back the fields (`decodeBody_renderedBody`); both in `rendering_unambiguous`.
-/

import ContextEngine.Runtime.Materialized

namespace ContextEngine.Runtime.FieldRendering

open ContextEngine.Python MaterializedFragmentProjection

/-! ## Python's lines -/

/-- The boundaries of `str.splitlines`. -/
def isLineBreak (c : CodePoint) : Bool :=
  decide (c.val ∈ [0x0a, 0x0d, 0x0b, 0x0c, 0x1c, 0x1d, 0x1e, 0x85, 0x2028, 0x2029])

/-- The lines still to come, after the characters `run` (newest first) of an open one; `cr` when
    a carriage return was the last character, whose line feed belongs to it. -/
def splitlinesFrom (run : Str) (cr : Bool) : Str → List Str
  | [] => if run.isEmpty then [] else [run.reverse]
  | c :: cs =>
    if cr && c == 0x0a then splitlinesFrom [] false cs
    else if isLineBreak c then run.reverse :: splitlinesFrom [] (c == 0x0d) cs
    else splitlinesFrom (c :: run) false cs

/-- `s.splitlines()`. -/
def splitlines (s : Str) : List Str := splitlinesFrom [] false s

example : splitlines [0x61, 0x0d, 0x0a, 0x62, 0x2028, 0x0a] = [[0x61], [0x62], []] := by decide

theorem splitlinesFrom_run {line : Str} (h : ∀ c ∈ line, isLineBreak c = false) (run rest : Str) :
    splitlinesFrom run false (line ++ rest) = splitlinesFrom (line.reverse ++ run) false rest := by
  induction line generalizing run with
  | nil => rfl
  | cons c line ih =>
    obtain ⟨hc, hline⟩ := List.forall_mem_cons.mp h
    rw [List.cons_append, splitlinesFrom, hc, Bool.false_and, if_neg Bool.false_ne_true, if_neg Bool.false_ne_true, ih hline,
      List.reverse_cons, List.append_assoc]
    rfl

/-- Lines without a boundary in them, joined by line feeds. -/
theorem splitlines_join {lines : List Str} (h : ∀ line ∈ lines, line ≠ [] ∧ ∀ c ∈ line, isLineBreak c = false) :
    splitlines ([0x0a].intercalate lines) = lines := by
  induction lines with
  | nil => rfl
  | cons line lines ih =>
    obtain ⟨⟨hne, hline⟩, hlines⟩ := List.forall_mem_cons.mp h
    cases lines with
    | nil =>
      rw [List.intercalate_singleton, splitlines, ← List.append_nil line, splitlinesFrom_run hline, List.append_nil, List.append_nil,
        splitlinesFrom, List.isEmpty_reverse, if_neg (by simpa using hne), List.reverse_reverse]
    | cons next lines =>
      rw [List.intercalate_cons_cons, splitlines, List.append_assoc, splitlinesFrom_run hline, List.append_nil, List.singleton_append,
        splitlinesFrom, Bool.false_and, if_neg Bool.false_ne_true, if_pos (by decide), List.reverse_reverse]
      exact congrArg _ (ih hlines)

/-! ## Escapes -/

/-- The value of a hexadecimal digit. -/
def hexValue (c : CodePoint) : Nat := hexDigits.findIdx fun d => Str.ofChar d == c

/-- An escaped value, read back. -/
def decodeValue : Str → Option Str
  | [] => some []
  | c :: rest =>
    if c = 0x5c then
      match rest with
      | [] => none
      | d :: rest =>
        if d = 0x75 then
          match rest with
          | h3 :: h2 :: h1 :: h0 :: rest =>
            (decodeValue rest).map (Fin.ofNat 0x110000 (((hexValue h3 * 16 + hexValue h2) * 16 + hexValue h1) * 16 + hexValue h0) :: ·)
          | _ => none
        else (decodeValue rest).map (d :: ·)
    else (decodeValue rest).map (c :: ·)

theorem hexValue_hexDigit {n : Nat} (h : n < 16) : hexValue (Str.ofChar (hexDigit n)) = n := by
  have hall : ∀ n < 16, hexValue (Str.ofChar (hexDigit n)) = n := by decide
  exact hall n h

/-- Every escape is read as the character it stands for. -/
theorem decodeValue_encodeChar (c : CodePoint) (rest : Str) : decodeValue (encodeChar c ++ rest) = (decodeValue rest).map (c :: ·) := by
  unfold encodeChar
  split
  · rename_i hbackslash
    subst hbackslash
    rw [List.cons_append, List.singleton_append, decodeValue.eq_def]
    dsimp only
    rw [if_pos rfl, if_neg (by decide)]
  · rename_i hbackslash
    split
    · rename_i hequals
      subst hequals
      rw [List.cons_append, List.singleton_append, decodeValue.eq_def]
      dsimp only
      rw [if_pos rfl, if_neg (by decide)]
    · split
      · rename_i hbreak
        have hlt : c.val < 65536 := by
          simp only [structuredFieldLineBreaks, List.contains_iff_mem, List.mem_cons, List.not_mem_nil,
            or_false] at hbreak
          omega
        rw [List.cons_append, List.cons_append, decodeValue.eq_def]
        dsimp only
        rw [if_pos rfl, if_pos rfl, hex4]
        simp only [List.map_cons, List.map_nil, List.cons_append, List.nil_append]
        rw [hexValue_hexDigit (by omega), hexValue_hexDigit (by omega), hexValue_hexDigit (by omega), hexValue_hexDigit (by omega)]
        have hvalue : ((c.val / 4096 % 16 * 16 + c.val / 256 % 16) * 16 + c.val / 16 % 16) * 16 + c.val % 16 = c.val := by omega
        rw [hvalue, Fin.ofNat_val_eq_self]
      · rw [List.singleton_append, decodeValue.eq_def]
        dsimp only
        rw [if_neg hbackslash]

theorem decodeValue_encode (value : Str) : decodeValue (encodeStructuredFieldValue value) = some value := by
  induction value with
  | nil => rfl
  | cons c value ih =>
    rw [encodeStructuredFieldValue, List.flatMap_cons, decodeValue_encodeChar]
    rw [encodeStructuredFieldValue] at ih
    rw [ih]
    rfl

/-- An escaped value has no line boundary. -/
theorem encodeChar_no_break (c d : CodePoint) (h : d ∈ encodeChar c) : isLineBreak d = false := by
  unfold encodeChar at h
  split at h
  · simp only [List.mem_cons, List.not_mem_nil, or_false, or_self] at h
    rw [h]
    decide
  · split at h
    · simp only [List.mem_cons, List.not_mem_nil, or_false] at h
      rcases h with rfl | rfl <;> decide
    · split at h
      · have hdigit : ∀ n < 16, isLineBreak (Str.ofChar (hexDigit n)) = false := by decide
        simp only [hex4, List.map_cons, List.map_nil, List.mem_cons, List.not_mem_nil, or_false] at h
        rcases h with rfl | rfl | rfl | rfl | rfl | rfl
        · decide
        · decide
        · exact hdigit _ (Nat.mod_lt _ (by decide))
        · exact hdigit _ (Nat.mod_lt _ (by decide))
        · exact hdigit _ (Nat.mod_lt _ (by decide))
        · exact hdigit _ (Nat.mod_lt _ (by decide))
      · rename_i hno
        rw [List.mem_singleton.mp h]
        simpa [isLineBreak, structuredFieldLineBreaks] using hno

/-! ## Projections -/

/-- `MaterializedFieldValue`. -/
structure FieldValue where
  fieldRef : String
  fieldValue : Str
  ordinal : Nat
  nonblank : fieldValue.blank = false

/-- A `MaterializedFragmentProjection` of kind `STRUCTURED_FIELDS`. -/
structure StructuredProjection where
  fields : List FieldValue
  projectionCeiling : List String
  refs_valid : validateProjectedFieldRefs (fields.map (·.fieldRef)) = .ok (fields.map (·.fieldRef))
  canonical : fields.map (·.ordinal) = List.range fields.length
  ceiling_valid : ∀ r ∈ projectionCeiling, isFieldRef r = true
  within_ceiling : ∀ f ∈ fields, f.fieldRef ∈ projectionCeiling
  no_body : "body" ∉ fields.map (·.fieldRef)

def FieldValue.line (f : FieldValue) : Str := Str.ofString f.fieldRef ++ 0x3d :: encodeStructuredFieldValue f.fieldValue

/-- `rendered_body`. -/
def StructuredProjection.renderedBody (p : StructuredProjection) : Str := [0x0a].intercalate (p.fields.map (·.line))

/-- A line, read back: the reference ends at the first equals sign. -/
def decodeLine (line : Str) : Option (Str × Str) :=
  (decodeValue (line.dropWhile (· ≠ 0x3d)).tail).map fun value => (line.takeWhile (· ≠ 0x3d), value)

def decodeBody (body : Str) : Option (List (Str × Str)) := (splitlines body).mapM decodeLine

theorem StructuredProjection.identifier (p : StructuredProjection) {f : FieldValue} (hf : f ∈ p.fields) : isFieldRef f.fieldRef = true := by
  have h := p.refs_valid
  unfold validateProjectedFieldRefs at h
  obtain ⟨_, -, h⟩ := Checks.bind_ok h
  obtain ⟨_, -, h⟩ := Checks.bind_ok h
  obtain ⟨_, hall, -⟩ := Checks.bind_ok h
  exact List.all_eq_true.mp (Checks.ensure_ok hall) _ (List.mem_map_of_mem hf)

/-- A reference is not empty, and has neither an equals sign nor a line boundary. -/
theorem fieldRef_chars {ref : String} (h : isFieldRef ref = true) :
    Str.ofString ref ≠ [] ∧ ∀ c ∈ Str.ofString ref, c ≠ 0x3d ∧ isLineBreak c = false := by
  unfold isFieldRef isIdentifier at h
  split at h
  · cases h
  · rename_i first rest heq
    simp only [Bool.and_eq_true, List.all_eq_true] at h
    refine ⟨by simp [Str.ofString, heq], ?_⟩
    intro c hc
    obtain ⟨d, hd, rfl⟩ := List.mem_map.mp hc
    rw [heq] at hd
    have hchar := h.2 d hd
    have hrange : 48 ≤ d.toNat ∧ d.toNat ≤ 57 ∨ 95 ≤ d.toNat ∧ d.toNat ≤ 122 := by
      simp only [lowercase, Bool.or_eq_true, Bool.and_eq_true, decide_eq_true_eq, Char.isDigit, List.contains_iff_mem,
        List.mem_singleton] at hchar
      rcases hchar with (⟨hlow, hhigh⟩ | ⟨hlow, hhigh⟩) | rfl
      · have hlow : 97 ≤ d.toNat := hlow
        have hhigh : d.toNat ≤ 122 := hhigh
        omega
      · have hlow : 48 ≤ d.toNat := hlow
        have hhigh : d.toNat ≤ 57 := hhigh
        omega
      · decide
    refine ⟨?_, ?_⟩
    · intro heq
      have hvalue : d.toNat = 61 := congrArg Fin.val heq
      omega
    · simp only [isLineBreak, Str.ofChar, List.mem_cons, List.not_mem_nil, or_false, decide_eq_false_iff_not]
      omega

theorem StructuredProjection.lines (p : StructuredProjection) :
    ∀ line ∈ p.fields.map (·.line), line ≠ [] ∧ ∀ c ∈ line, isLineBreak c = false := by
  intro line hline
  obtain ⟨f, hf, rfl⟩ := List.mem_map.mp hline
  obtain ⟨hne, hchars⟩ := fieldRef_chars (p.identifier hf)
  refine ⟨by simp [FieldValue.line], ?_⟩
  intro c hc
  rcases List.mem_append.mp hc with hc | hc
  · exact (hchars c hc).2
  · rcases List.mem_cons.mp hc with rfl | hc
    · decide
    · obtain ⟨d, -, hd⟩ := List.mem_flatMap.mp hc
      exact encodeChar_no_break d c hd

theorem splitlines_renderedBody (p : StructuredProjection) : splitlines p.renderedBody = p.fields.map (·.line) :=
  splitlines_join p.lines

theorem decodeLine_line {f : FieldValue} (h : isFieldRef f.fieldRef = true) :
    decodeLine f.line = some (Str.ofString f.fieldRef, f.fieldValue) := by
  have hchars : ∀ c ∈ Str.ofString f.fieldRef, decide (c ≠ 0x3d) = true := fun c hc => decide_eq_true ((fieldRef_chars h).2 c hc).1
  rw [decodeLine, FieldValue.line, List.dropWhile_append_of_pos hchars, List.takeWhile_append_of_pos hchars,
    List.dropWhile_cons_of_neg (by decide), List.takeWhile_cons_of_neg (by decide), List.append_nil, List.tail_cons, decodeValue_encode]
  rfl

theorem decodeBody_renderedBody (p : StructuredProjection) :
    decodeBody p.renderedBody = some (p.fields.map fun f => (Str.ofString f.fieldRef, f.fieldValue)) := by
  have hlines : ∀ fs : List FieldValue, (∀ f ∈ fs, isFieldRef f.fieldRef = true) →
      (fs.map (·.line)).mapM decodeLine = some (fs.map fun f => (Str.ofString f.fieldRef, f.fieldValue)) := by
    intro fs hfs
    induction fs with
    | nil => rfl
    | cons f fs ih =>
      obtain ⟨hf, hfs⟩ := List.forall_mem_cons.mp hfs
      rw [List.map_cons, List.mapM_cons, decodeLine_line hf, ih hfs]
      rfl
  rw [decodeBody, splitlines_renderedBody]
  exact hlines p.fields fun f hf => p.identifier hf

/-- One line for each field, and the fields are read back from the body: bodies that are equal
    have equal references and values. -/
theorem rendering_unambiguous (p : StructuredProjection) : splitlines p.renderedBody = p.fields.map (·.line) ∧
    (splitlines p.renderedBody).length = p.fields.length ∧
    decodeBody p.renderedBody = some (p.fields.map fun f => (Str.ofString f.fieldRef, f.fieldValue)) ∧
    ∀ q : StructuredProjection, q.renderedBody = p.renderedBody →
      q.fields.map (fun f => (f.fieldRef, f.fieldValue)) = p.fields.map fun f => (f.fieldRef, f.fieldValue) := by
  refine ⟨splitlines_renderedBody p, by rw [splitlines_renderedBody, List.length_map], decodeBody_renderedBody p, ?_⟩
  intro q hbody
  have hpairs : q.fields.map (fun f => (Str.ofString f.fieldRef, f.fieldValue)) = p.fields.map fun f => (Str.ofString f.fieldRef, f.fieldValue) := by
    rw [← Option.some_inj, ← decodeBody_renderedBody q, ← decodeBody_renderedBody p, hbody]
  have hinj : Function.Injective fun pair : String × Str => (Str.ofString pair.1, pair.2) := by
    intro pair pair' h
    obtain ⟨hr, hv⟩ := Prod.mk.inj h
    exact Prod.ext (Str.ofString_injective hr) hv
  refine List.map_injective_iff.mpr hinj ?_
  rw [List.map_map, List.map_map]
  exact hpairs

/-! ## The Kernel's bodies -/

/-- The projection, as the port returns it. -/
def StructuredProjection.materialized (p : StructuredProjection) : MaterializedFragmentProjection :=
  ⟨.structuredFields, p.fields.map fun f => ⟨f.fieldRef, f.fieldValue, f.ordinal⟩, p.projectionCeiling⟩

/-- The Kernel renders a projection's body as it is rendered here. -/
theorem renderedBody_materialized (p : StructuredProjection) : p.materialized.renderedBody = p.renderedBody := by
  have hlines : (p.materialized.fields.map fun f => Str.ofString f.fieldRef ++ 0x3d :: encodeStructuredFieldValue f.fieldValue) =
      p.fields.map (·.line) := List.map_map
  exact congrArg [0x0a].intercalate hlines

end ContextEngine.Runtime.FieldRendering
