/-
  ContextEngine.Python.Str — Python's `str` as it is, with lone surrogates, and its UTF-8.

  A `Str` is a sequence of code points. `errors="surrogatepass"` writes every one of them;
  the strict form fails on a surrogate. Lean's `String` is the `Str`s without surrogates, and
  both have the same octets.

  Proved: the octets of a `Str` determine it (`utf8_injective`), and so do the octets of the
  texts of a sequence, each after its length (`encodeText_prefixCode`).
-/

import ContextEngine.Machine.Codes
import ContextEngine.Python.Text

namespace ContextEngine.Python

open ContextEngine.Machine

abbrev CodePoint := Fin 0x110000

/-- There are code points, so numerals are some of them. -/
instance neZeroCodePoints : NeZero 0x110000 := ⟨by decide⟩

abbrev Str := List CodePoint

namespace Str

def ofChar (c : Char) : CodePoint := ⟨c.toNat, by
  have h := c.valid
  simp only [UInt32.isValidChar, Nat.isValidChar] at h
  have : c.toNat = c.val.toNat := rfl
  omega⟩

def ofString (s : String) : Str := s.toList.map ofChar

theorem ofChar_injective : Function.Injective ofChar := by
  intro c d h
  exact Char.toNat_inj.mp (Fin.mk.inj h)

theorem ofString_injective : Function.Injective ofString := by
  intro s t h
  exact String.toList_inj.mp (List.map_injective_iff.mpr ofChar_injective h)

def isSurrogate (c : CodePoint) : Bool := 0xd800 ≤ c.val && c.val ≤ 0xdfff

/-- `str.isspace` on one character. -/
def isspace (c : CodePoint) : Bool :=
  let n := c.val
  (0x09 ≤ n && n ≤ 0x0d) || (0x1c ≤ n && n ≤ 0x20) || n == 0x85 || n == 0xa0 || n == 0x1680 ||
    (0x2000 ≤ n && n ≤ 0x200a) || n == 0x2028 || n == 0x2029 || n == 0x202f || n == 0x205f || n == 0x3000

/-- `not s or s.isspace()`. -/
def blank (s : Str) : Bool := s.all isspace

/-! ## UTF-8 -/

def utf8Char (c : CodePoint) : List UInt8 :=
  let n := c.val
  if n ≤ 0x7f then [.ofNat n]
  else if n ≤ 0x7ff then [.ofNat (n / 64 % 0x20 + 0xc0), .ofNat (n % 0x40 + 0x80)]
  else if n ≤ 0xffff then [.ofNat (n / 4096 % 0x10 + 0xe0), .ofNat (n / 64 % 0x40 + 0x80), .ofNat (n % 0x40 + 0x80)]
  else [.ofNat (n / 262144 % 0x08 + 0xf0), .ofNat (n / 4096 % 0x40 + 0x80), .ofNat (n / 64 % 0x40 + 0x80), .ofNat (n % 0x40 + 0x80)]

/-- `s.encode("utf-8", "surrogatepass")`. -/
def utf8 (s : Str) : List UInt8 := s.flatMap utf8Char

/-- `s.encode("utf-8")`, which fails on a surrogate. -/
def utf8Strict (s : Str) : Option (List UInt8) := if s.any isSurrogate then none else some s.utf8

/-- How far a word goes is in its first octet. -/
theorem utf8Char_prefixCode : PrefixCode (fun _ => True) utf8Char := by
  rintro ⟨n, hn⟩ ⟨m, hm⟩ x y - - h
  have hoctet {a b : Nat} (ha : a < 256) (hb : b < 256) (hab : UInt8.ofNat a = UInt8.ofNat b) : a = b := by
    have := congrArg UInt8.toNat hab
    rwa [UInt8.toNat_ofNat', UInt8.toNat_ofNat', Nat.mod_eq_of_lt ha, Nat.mod_eq_of_lt hb] at this
  simp only [utf8Char] at h
  split_ifs at h <;> simp only [List.cons_append, List.nil_append, List.cons.injEq] at h
  all_goals
    obtain ⟨h1, h⟩ := h
    have h1 := hoctet (by omega) (by omega) h1
  · exact ⟨Fin.ext h1, h⟩
  · omega
  · omega
  · omega
  · omega
  · obtain ⟨h2, h⟩ := h
    have h2 := hoctet (by omega) (by omega) h2
    exact ⟨Fin.ext (by simp only; omega), h⟩
  · omega
  · omega
  · omega
  · omega
  · obtain ⟨h2, h3, h⟩ := h
    have h2 := hoctet (by omega) (by omega) h2
    have h3 := hoctet (by omega) (by omega) h3
    exact ⟨Fin.ext (by simp only; omega), h⟩
  · omega
  · omega
  · omega
  · omega
  · obtain ⟨h2, h3, h4, h⟩ := h
    have h2 := hoctet (by omega) (by omega) h2
    have h3 := hoctet (by omega) (by omega) h3
    have h4 := hoctet (by omega) (by omega) h4
    exact ⟨Fin.ext (by simp only; omega), h⟩

theorem utf8Char_ne_nil (c : CodePoint) : utf8Char c ≠ [] := by
  simp only [utf8Char]
  split_ifs <;> exact List.cons_ne_nil _ _

theorem utf8_injective {s t : Str} (h : s.utf8 = t.utf8) : s = t :=
  utf8Char_prefixCode.flatMap_injective (fun c _ => utf8Char_ne_nil c) (fun _ _ => trivial) (fun _ _ => trivial) h

/-- A `String` has the octets of its code points. -/
theorem encode_eq_utf8 (s : String) : encode s = (ofString s).utf8 := by
  have h : s.toUTF8 = (s.toList.flatMap String.utf8EncodeChar).toByteArray := by
    conv => lhs; rw [← String.ofList_toList (s := s)]
    rw [String.toUTF8_eq_toByteArray]
    exact String.toByteArray_ofList
  have hchar : ∀ c, utf8Char (ofChar c) = String.utf8EncodeChar c := fun _ => rfl
  rw [encode, h, utf8, ofString, List.flatMap_map]
  simp [hchar]

theorem utf8_append (s t : Str) : (s ++ t).utf8 = s.utf8 ++ t.utf8 := List.flatMap_append

/-! ## Framed texts -/

/-- `len(b).to_bytes(8, "big") + b`. -/
def lengthPrefix (b : List UInt8) : List UInt8 := bigEndian 8 b.length ++ b

/-- `_encode_text`. -/
def encodeText (s : Str) : List UInt8 := lengthPrefix s.utf8

/-- A text whose length in octets can be written in eight of them. -/
def Framable (s : Str) : Prop := s.utf8.length < 2 ^ 64

theorem lengthPrefix_prefixCode : PrefixCode (fun b => b.length < 2 ^ 64) lengthPrefix := framed_prefixCode 8

theorem encodeText_prefixCode : PrefixCode Framable encodeText :=
  lengthPrefix_prefixCode.comp (fun _ h => h) fun _ _ _ _ h => utf8_injective h

theorem encodeText_ne_nil (s : Str) : encodeText s ≠ [] := by
  intro h
  have := congrArg List.length h
  simp [encodeText, lengthPrefix] at this

end Str

/-! ## Words -/

/-- The Unicode tables that lexical matching reads. -/
structure UnicodeData where
  /-- What `\w` matches. -/
  isWord : CodePoint → Bool
  /-- Full case folding, character by character. -/
  casefold : CodePoint → Str
  lowercase_word : ∀ c, 'a' ≤ c → c ≤ 'z' → isWord (Str.ofChar c) = true ∧ casefold (Str.ofChar c) = [Str.ofChar c]

/-- The words still to come, after the characters `run` (newest first) of an open one. -/
def wordsFrom (isWord : CodePoint → Bool) (run : Str) : Str → List Str
  | [] => if run.isEmpty then [] else [run.reverse]
  | c :: cs =>
    if isWord c then wordsFrom isWord (c :: run) cs
    else (if run.isEmpty then [] else [run.reverse]) ++ wordsFrom isWord [] cs

/-- `re.findall(r"[\w]+", s.casefold())`. -/
def UnicodeData.words (u : UnicodeData) (s : Str) : List Str := wordsFrom u.isWord [] (s.flatMap u.casefold)

end ContextEngine.Python
