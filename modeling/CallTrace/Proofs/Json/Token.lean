import CallTrace.Json.Token

/-!
# Tokens that are read as they were written

Quoted text is scanned symbol by symbol: each character, however it was escaped, is one
symbol again.  A number in plain digits is scanned up to the end of its digits, provided
that nothing behind it could be part of a number.
-/

namespace CallTrace.Json

/-! ## Quoted text -/

/-- A character that needs no escape stands for itself. -/
theorem scanString_of_plain {char : Char} (hquote : char ≠ '"') (hbackslash : char ≠ '\\')
    (hcontrol : ¬ char.toNat < 0x20) (rest : List Char) :
    scanString (char :: rest) = (scanString rest).map (consSymbol (.char char)) := by
  rw [scanString]
  · simp [hbackslash, hcontrol]
  · simpa using hquote
  · simp [hbackslash]
  · simp [hbackslash]

/-- Control characters without a short escape are written as their code. -/
theorem scanString_code {char : Char} (hcontrol : char.toNat < 0x20) (rest : List Char) :
    scanString ('\\' :: 'u' :: '0' :: '0' :: Nat.digitChar (char.toNat / 16) ::
        Nat.digitChar (char.toNat % 16) :: rest) =
      (scanString rest).map (consSymbol (.char char)) := by
  have hhigh : Hex.digitValue? (Nat.digitChar (char.toNat / 16)) = some (char.toNat / 16) :=
    Hex.digitValue?_digitChar (by omega)
  have hlow : Hex.digitValue? (Nat.digitChar (char.toNat % 16)) = some (char.toNat % 16) :=
    Hex.digitValue?_digitChar (by omega)
  have hzero : Hex.digitValue? '0' = some 0 := rfl
  have hcode : codeOfDigits? '0' '0' (Nat.digitChar (char.toNat / 16))
      (Nat.digitChar (char.toNat % 16)) = some char.toNat := by
    simp only [codeOfDigits?, hzero, hhigh, hlow, Option.bind_eq_bind, Option.bind_some,
      Option.pure_def, Option.some.injEq]
    omega
  have hsymbol : Symbol.ofCode char.toNat = .char char := by
    unfold Symbol.ofCode
    rw [if_neg (by omega), Char.ofNat_toNat]
  rw [scanString]
  simp only [hcode, hsymbol]

/-- A character is scanned as itself, however it was written. -/
theorem scanString_escape (char : Char) (rest : List Char) :
    scanString (escape char ++ rest) = (scanString rest).map (consSymbol (.char char)) := by
  unfold escape
  split
  case h_8 =>
    split
    · next hcontrol => exact scanString_code hcontrol rest
    · next hcontrol => exact scanString_of_plain ‹_› ‹_› hcontrol rest
  all_goals rfl

theorem scanString_escapes (chars rest : List Char) :
    scanString (chars.flatMap escape ++ '"' :: rest) = some (chars.map .char, rest) := by
  induction chars with
  | nil => rfl
  | cons char chars ih =>
      rw [List.flatMap_cons, List.append_assoc, scanString_escape, ih]
      rfl

theorem charsOfSymbols?_map_char (chars : List Char) :
    charsOfSymbols? (chars.map .char) = some chars := by
  induction chars with
  | nil => rfl
  | cons char chars ih => simp [charsOfSymbols?, ih]

/-- Quoted text is scanned as the symbols of the text. -/
theorem scanString_quote? (text? : Option String) (rest : List Char) :
    ∃ body symbols, quote? text? ++ rest = '"' :: body ∧
      scanString body = some (symbols, rest) ∧ textOfSymbols? symbols = text? := by
  cases text? with
  | none => exact ⟨_, [.half 0xd800], rfl, rfl, rfl⟩
  | some text =>
      refine ⟨text.toList.flatMap escape ++ '"' :: rest, text.toList.map .char, ?_, ?_, ?_⟩
      · simp [quote?, quote]
      · exact scanString_escapes text.toList rest
      · simp [textOfSymbols?, charsOfSymbols?_map_char]

/-- The name of a member is scanned with its colon. -/
theorem scanName_quote? (name? : Option String) (rest : List Char) :
    scanName (quote? name? ++ ':' :: rest) = some (name?, rest) := by
  obtain ⟨body, symbols, hbody, hscan, htext⟩ := scanString_quote? name? (':' :: rest)
  have hquote : skipBlanks ('"' :: body) = '"' :: body := rfl
  have hcolon : skipBlanks (':' :: rest) = ':' :: rest := rfl
  simp only [scanName, hbody, hquote, hscan, hcolon, htext, Option.bind_eq_bind, Option.bind_some]

/-! ## Numbers -/

/-- What may follow a value in the text of a larger one. -/
inductive Follows : List Char → Prop where
  | nothing : Follows []
  | comma (rest : List Char) : Follows (',' :: rest)
  | bracket (rest : List Char) : Follows (']' :: rest)
  | brace (rest : List Char) : Follows ('}' :: rest)

section

variable {digits rest : List Char} {n : Nat}

theorem scanDigits_append (hdigits : ∀ char ∈ digits, char.isDigit) (hne : digits ≠ [])
    (hrest : Follows rest) : scanDigits (digits ++ rest) = some (digits, rest) := by
  have htake : (digits ++ rest).takeWhile Char.isDigit = digits := by
    rw [List.takeWhile_append_of_pos hdigits]
    cases hrest <;> simp [Char.isDigit]
  have hdrop : (digits ++ rest).dropWhile Char.isDigit = rest := by
    rw [List.dropWhile_append_of_pos hdigits]
    cases hrest <;> rfl
  simp [scanDigits, htake, hdrop, hne]

/-- Only zero is written with a zero in front. -/
theorem toDigits_eq_zero_cons_iff : Nat.toDigits 10 n = '0' :: digits ↔ n = 0 ∧ digits = [] := by
  constructor
  · intro hdigits
    induction n using Nat.base_induction 10 (by decide) generalizing digits with
    | single m hm =>
        rw [Nat.toDigits_of_lt_base hm, List.cons.injEq, Nat.digitChar_eq_zero] at hdigits
        exact ⟨hdigits.1, hdigits.2.symm⟩
    | digit m k hk hm ih =>
        -- The digits in front of the last one would be those of zero.
        rw [← Nat.toDigits_append_toDigits (by decide) hm hk] at hdigits
        cases hfront : Nat.toDigits 10 m with
        | nil => exact absurd hfront Nat.toDigits_ne_nil
        | cons first front =>
            rw [hfront, List.cons_append, List.cons.injEq] at hdigits
            rw [hdigits.1] at hfront
            exact absurd (ih hfront).1 (Nat.ne_of_gt hm)
  · rintro ⟨rfl, rfl⟩
    rfl

/-- The digits of a number are taken as they are. -/
theorem scanWhole_toDigits (n : Nat) (hrest : Follows rest) :
    scanWhole (Nat.toDigits 10 n ++ rest) = some (Nat.toDigits 10 n, rest) := by
  have hdigits : ∀ char ∈ Nat.toDigits 10 n, char.isDigit := fun _ =>
    Nat.isDigit_of_mem_toDigits (by decide) (by decide)
  unfold scanWhole
  split
  · next more hmore =>
    cases hall : Nat.toDigits 10 n with
    | nil => exact absurd hall Nat.toDigits_ne_nil
    | cons first digits =>
        rw [hall, List.cons_append, List.cons.injEq] at hmore
        obtain ⟨rfl, rfl⟩ := hmore
        rw [(toDigits_eq_zero_cons_iff.mp hall).2]
        rfl
  · exact scanDigits_append hdigits Nat.toDigits_ne_nil hrest

theorem scanUnsigned_toDigits (n : Nat) (hrest : Follows rest) :
    scanUnsigned (Nat.toDigits 10 n ++ rest) = some ((Nat.toDigits 10 n, []), rest) := by
  have hfraction : scanFraction rest = some ([], rest) := by
    cases hrest <;> rfl
  have hexponent : scanExponent rest = some ([], rest) := by
    cases hrest <;> rfl
  simp [scanUnsigned, scanWhole_toDigits n hrest, hfraction, hexponent]

theorem exists_toDigits_eq_cons (n : Nat) :
    ∃ first digits, Nat.toDigits 10 n = first :: digits ∧ first.isDigit := by
  have hne : Nat.toDigits 10 n ≠ [] := Nat.toDigits_ne_nil
  obtain ⟨first, digits, hdigits⟩ := List.exists_cons_of_ne_nil hne
  have hmem : first ∈ Nat.toDigits 10 n := by simp [hdigits]
  exact ⟨first, digits, hdigits, Nat.isDigit_of_mem_toDigits (by decide) (by decide) hmem⟩

/-- A number in plain digits is scanned as the number. -/
theorem scanAtom_toDigits (n : Nat) (hrest : Follows rest) :
    scanAtom (Nat.toDigits 10 n ++ rest) = some (natural n, rest) := by
  have hunsigned := scanUnsigned_toDigits n hrest
  have hvalue : Nat.ofDigitChars 10 (Nat.toDigits 10 n) 0 = n := Nat.ofDigitChars_ten_toDigits
  obtain ⟨first, digits, hdigits, hfirst⟩ := exists_toDigits_eq_cons n
  rw [hdigits] at hunsigned hvalue ⊢
  -- A digit is none of the characters that a sign or a word begins with.
  have hnumber : scanNumber (first :: digits ++ rest) = some (natural n, rest) := by
    rw [scanNumber]
    · simp only [hunsigned, hvalue, Option.bind_eq_bind, Option.bind_some, List.isEmpty_nil,
        if_true]
    · intro more hmore
      cases hmore
      exact absurd hfirst (by decide)
  rw [scanAtom]
  · exact hnumber
  all_goals
    intro more hmore
    cases hmore
    exact absurd hfirst (by decide)

end

end CallTrace.Json
