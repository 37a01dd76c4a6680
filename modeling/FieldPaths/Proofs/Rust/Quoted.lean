import FieldPaths.Rust.Quoted
import FieldPaths.Rust.Scan

/-!
# What a string literal stands for

A reader of string literals, and that it gets back every text that was quoted. The reader knows
nothing of which characters are visible: it takes an escape wherever there is one, and any other
character for itself, so which characters are escaped may change without it.

Where a literal ends is found by other rules, which take whatever follows a backslash. That
both agree on quoted text is `quotedSize_quoted`.
-/

namespace FieldPaths

namespace Rust

/-! ## Reading -/

/-- The value of a hexadecimal digit. -/
def hexValue? (c : Char) : Option Nat :=
  if '0' ≤ c ∧ c ≤ '9' then some (c.toNat - '0'.toNat)
  else if 'a' ≤ c ∧ c ≤ 'f' then some (c.toNat - 'a'.toNat + 10)
  else if 'A' ≤ c ∧ c ≤ 'F' then some (c.toNat - 'A'.toNat + 10)
  else none

/-- The character that a backslash and one more character stand for. -/
def shortEscape? : Char → Option Char
  | '0' => some '\x00'
  | 't' => some '\t'
  | 'n' => some '\n'
  | 'r' => some '\r'
  | '\x22' => some '\x22'
  | '\'' => some '\''
  | '\\' => some '\\'
  | _ => none

mutual

/-- The characters that a string literal stands for, after its opening quote. Nothing may come
after the closing one. -/
def literalChars? : List Char → Option (List Char)
  | [] => none
  | ['\x22'] => some []
  | '\\' :: 'u' :: '\x7b' :: cs => codePoint? none cs
  | '\\' :: c :: cs => do
    let c ← shortEscape? c
    let more ← literalChars? cs
    return c :: more
  | c :: cs => if c = '\x22' then none else (literalChars? cs).map (c :: ·)

/-- The same in a numeric escape, with the value of the digits before, if there were any. -/
def codePoint? (value : Option Nat) : List Char → Option (List Char)
  | [] => none
  | '\x7d' :: cs => do
    let value ← value
    if value.isValidChar then (literalChars? cs).map (Char.ofNat value :: ·) else none
  | c :: cs => do
    let digit ← hexValue? c
    codePoint? (some (16 * value.getD 0 + digit)) cs

end

/-- The text that a string literal stands for. -/
def unquoted? (literal : String) : Option String :=
  match literal.toList with
  | '\x22' :: cs => (literalChars? cs).map String.ofList
  | _ => none

/-! ## Reading what was quoted -/

theorem hexValue?_digitChar : ∀ d < 16, hexValue? (Nat.digitChar d) = some d := by decide

theorem codePoint?_digitChar (value : Option Nat) {d : Nat} (h : d < 16) (rest : List Char) :
    codePoint? value (Nat.digitChar d :: rest)
      = codePoint? (some (16 * value.getD 0 + d)) rest := by
  have hclose : Nat.digitChar d ≠ '\x7d' := by simp
  rw [codePoint?.eq_3 _ _ _ hclose, hexValue?_digitChar d h]
  rfl

theorem codePoint?_hexDigits (n : Nat) {value : Option Nat} (h : value.getD 0 = 0)
    (rest : List Char) : codePoint? value (hexDigits n ++ rest) = codePoint? (some n) rest := by
  induction n using Nat.strongRecOn generalizing rest with
  | ind n ih =>
    rw [hexDigits]
    by_cases hn : n < 16
    · rw [Nat.toDigits_of_lt_base hn, List.singleton_append, codePoint?_digitChar _ hn, h,
        Nat.mul_zero, Nat.zero_add]
    · have hlast : n % 16 < 16 := Nat.mod_lt n (by decide)
      rw [Nat.toDigits_of_base_le (by decide) (Nat.le_of_not_lt hn), List.append_assoc,
        List.singleton_append, ← hexDigits, ih (n / 16) (by omega), codePoint?_digitChar _ hlast,
        Option.getD_some, Nat.div_add_mod]

/-- How a character is written: by a short escape, by its number, or as it is. -/
theorem quotedChar_cases (c : Char) :
    (∃ d, d ≠ 'u' ∧ shortEscape? d = some c ∧ quotedChar c = ['\\', d]) ∨
      quotedChar c = '\\' :: 'u' :: '\x7b' :: (hexDigits c.toNat ++ ['\x7d']) ∨
      (c ≠ '\x22' ∧ c ≠ '\\' ∧ quotedChar c = [c]) := by
  unfold quotedChar
  split
  · exact .inl ⟨'0', by decide, rfl, rfl⟩
  · exact .inl ⟨'t', by decide, rfl, rfl⟩
  · exact .inl ⟨'n', by decide, rfl, rfl⟩
  · exact .inl ⟨'r', by decide, rfl, rfl⟩
  · exact .inl ⟨'\x22', by decide, rfl, rfl⟩
  · exact .inl ⟨'\\', by decide, rfl, rfl⟩
  · rename_i hquote hbackslash
    split
    · exact .inr (.inl rfl)
    · exact .inr (.inr ⟨hquote, hbackslash, rfl⟩)

theorem literalChars?_quotedChar (c : Char) (rest : List Char) :
    literalChars? (quotedChar c ++ rest) = (literalChars? rest).map (c :: ·) := by
  rcases quotedChar_cases c with ⟨d, hd, hshort, h⟩ | h | ⟨hquote, hbackslash, h⟩
  · rw [h, List.cons_append, List.singleton_append,
      literalChars?.eq_4 _ _ fun cs hu _ ↦ hd hu, hshort]
    cases literalChars? rest <;> rfl
  · have hvalid : c.toNat.isValidChar := c.valid
    rw [h, List.cons_append, List.cons_append, List.cons_append, List.append_assoc,
      List.singleton_append, literalChars?.eq_3, codePoint?_hexDigits _ rfl, codePoint?.eq_2]
    change (if c.toNat.isValidChar then _ else none) = _
    rw [if_pos hvalid, Char.ofNat_toNat]
  · rw [h, List.singleton_append, literalChars?.eq_5 _ _ (fun h _ ↦ hquote h)
      (fun _ h _ ↦ hbackslash h) (fun _ _ h _ ↦ hbackslash h), if_neg hquote]

theorem literalChars?_quoted (cs : List Char) :
    literalChars? (cs.flatMap quotedChar ++ ['\x22']) = some cs := by
  induction cs with
  | nil => exact literalChars?.eq_2
  | cons c cs ih =>
    rw [List.flatMap_cons, List.append_assoc, literalChars?_quotedChar, ih]
    rfl

theorem toList_quoted (text : String) :
    (quoted text).toList = '\x22' :: (text.toList.flatMap quotedChar ++ ['\x22']) := by
  rw [quoted, String.toList_ofList, List.cons_append]

/-- Quoting loses nothing. -/
theorem unquoted?_quoted (text : String) : unquoted? (quoted text) = some text := by
  have hchars := literalChars?_quoted text.toList
  rw [unquoted?, toList_quoted]
  simp only [hchars, Option.map_some, String.ofList_toList]

/-! ## The extent of quoted text -/

theorem mem_hexDigits {n : Nat} {c : Char} (h : c ∈ hexDigits n) : ∃ d, c = Nat.digitChar d := by
  induction n using Nat.strongRecOn with
  | ind n ih =>
    rw [hexDigits, Nat.toDigits_eq_if (by decide)] at h
    split at h
    · exact ⟨n, List.mem_singleton.mp h⟩
    · rcases List.mem_append.mp h with h | h
      · exact ih (n / 16) (by omega) h
      · exact ⟨_, List.mem_singleton.mp h⟩

/-- Characters other than quotes and backslashes are passed one by one. -/
theorem quotedSize_append {quote : Char} {cs : List Char}
    (h : ∀ c ∈ cs, c ≠ quote ∧ c ≠ '\\') (rest : List Char) :
    Lexeme.quotedSize quote (cs ++ rest)
      = (Lexeme.quotedSize quote rest).map (· + cs.length) := by
  induction cs with
  | nil => simp
  | cons c cs ih =>
    rw [List.forall_mem_cons] at h
    rw [List.cons_append, Lexeme.quotedSize.eq_3 _ _ _ (fun _ _ hc _ ↦ h.1.2 hc), if_neg h.1.1,
      ih h.2, Option.map_map]
    rfl

theorem quotedSize_quotedChar (c : Char) (rest : List Char) :
    Lexeme.quotedSize '\x22' (quotedChar c ++ rest)
      = (Lexeme.quotedSize '\x22' rest).map (· + (quotedChar c).length) := by
  rcases quotedChar_cases c with ⟨d, -, -, h⟩ | h | ⟨hquote, hbackslash, h⟩
  · rw [h, List.cons_append, List.singleton_append, Lexeme.quotedSize]
    rfl
  · have hplain : ∀ d ∈ '\x7b' :: (hexDigits c.toNat ++ ['\x7d']), d ≠ '\x22' ∧ d ≠ '\\' := by
      intro d hd
      simp only [List.mem_cons, List.mem_append, List.not_mem_nil, or_false] at hd
      rcases hd with rfl | hd | rfl
      · decide
      · obtain ⟨n, rfl⟩ := mem_hexDigits hd
        exact ⟨by simp, by simp⟩
      · decide
    rw [h, List.cons_append, List.cons_append, Lexeme.quotedSize, quotedSize_append hplain,
      Option.map_map]
    rfl
  · rw [h]
    exact quotedSize_append (List.forall_mem_singleton.mpr ⟨hquote, hbackslash⟩) rest

/-- Of a quoted text, all is taken up to the closing quote, whatever comes next. -/
theorem quotedSize_quoted (cs rest : List Char) :
    Lexeme.quotedSize '\x22' (cs.flatMap quotedChar ++ '\x22' :: rest)
      = some ((cs.flatMap quotedChar).length + 1) := by
  induction cs with
  | nil =>
    have hquote : '\x22' ≠ '\\' := by decide
    rw [List.flatMap_nil, List.nil_append, Lexeme.quotedSize.eq_3 _ _ _ fun _ _ h _ ↦ hquote h,
      if_pos rfl]
    rfl
  | cons c cs ih =>
    rw [List.flatMap_cons, List.append_assoc, quotedSize_quotedChar, ih, Option.map_some,
      List.length_append]
    congr 1
    omega

end Rust

end FieldPaths
