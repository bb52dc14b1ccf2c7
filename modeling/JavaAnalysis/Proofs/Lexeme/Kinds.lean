import JavaAnalysis.Lexeme.Scan

/-!
# What a lexeme can be

`NextCase` lists the ways in which a lexeme can start at a place, with the kind and the length that
each of them gives. Every fact about the kinds of lexemes is read off it: no lexeme but the last is
the end of the file, a lexeme that starts with `>` is one of the operators made of `>` and `=`, and
blanks hold nothing but blank characters.
-/

set_option autoImplicit false

namespace JavaAnalysis

theorem utf8ByteSize_ofList (cs : List Char) : (String.ofList cs).utf8ByteSize = utf8Length cs := by
  induction cs with
  | nil => rfl
  | cons c cs ih =>
    rw [String.ofList_cons, String.utf8ByteSize_append, ih]
    simp [utf8Length]

theorem utf8ByteSize_eq (s : String) : s.utf8ByteSize = utf8Length s.toList := by
  rw [← utf8ByteSize_ofList, String.ofList_toList]

theorem utf8Length_pos {cs : List Char} (h : cs ≠ []) : 0 < utf8Length cs := by
  cases cs with
  | nil => exact absurd rfl h
  | cons c cs =>
    have := c.utf8Size_pos
    simp only [utf8Length]
    omega

namespace TokenKind

theorem not_startsWithGt_of_isLiteral {k : TokenKind} (h : k.isLiteral = true) :
    k.startsWithGt = false := by
  cases k <;> simp_all [isLiteral, startsWithGt]

theorem not_startsWithGt_of_isKeyword {k : TokenKind} (h : k.isKeyword = true) :
    k.startsWithGt = false := by
  revert h
  cases k <;> decide

theorem not_startsWithGt_of_isComment {k : TokenKind} (h : k.isComment = true) :
    k.startsWithGt = false := by
  cases k <;> simp_all [isComment, isTrivia, startsWithGt]

end TokenKind

namespace Lexeme

/--
The ways in which a lexeme can start with `c` and go on with the characters `cs`, each with the kind
of the lexeme and the number of characters behind `c` that belong to it.
-/
inductive NextCase (level : LanguageLevel) (c : Char) (cs : List Char) :
    TokenKind → Nat → Prop where
  | blanks (h : isBlank c = true) : NextCase level c cs .whitespace (countWhile isBlank cs)
  | number (h : c.isDigit = true) : NextCase level c cs (number c cs).1 (number c cs).2
  | fraction (h : c = '.') : NextCase level c cs (fraction cs).1 (fraction cs).2
  | comment {kind : TokenKind} {n : Nat} (h : comment? level cs = some (.ok (kind, n))) :
      NextCase level c cs kind n
  | charLiteral {n : Nat} (h : quotedLength? '\'' cs = some n) : NextCase level c cs .charLiteral n
  | stringLiteral {kind : TokenKind} {n : Nat} (h : string level cs = .ok (kind, n)) :
      NextCase level c cs kind n
  | operator {text : List Char} {kind : TokenKind} (h : operatorAt? (c :: cs) = some (text, kind)) :
      NextCase level c cs kind (text.length - 1)
  | word (h : isIdentifierStart c = true) :
      NextCase level c cs
        (wordKind level (String.ofList (c :: cs.take (countWhile isIdentifierPart cs))))
        (countWhile isIdentifierPart cs)

theorem take_countWhile (p : Char → Bool) (cs : List Char) :
    cs.take (countWhile p cs) = cs.takeWhile p :=
  (List.prefix_iff_eq_take.1 (List.takeWhile_prefix p)).symm

variable {level : LanguageLevel} {c : Char} {cs : List Char} {kind : TokenKind} {n : Nat}

theorem operatorOrWord_cases (h : operatorOrWord level c cs = .ok (kind, n)) :
    NextCase level c cs kind n := by
  unfold operatorOrWord at h
  split at h
  · rename_i text k hop
    cases h
    exact .operator hop
  · split at h
    · rename_i hstart
      cases h
      exact .word hstart
    · cases h

theorem next_cases (h : next level c cs = .ok (kind, n)) : NextCase level c cs kind n := by
  unfold next at h
  split at h
  · rename_i hblank
    cases h
    exact .blanks hblank
  split at h
  · rename_i hdigit
    have hnum : number c cs = (kind, n) := Except.ok.inj h
    have := @NextCase.number level c cs hdigit
    rwa [hnum] at this
  split at h
  · cases hcom : comment? level cs with
    | none => exact operatorOrWord_cases (by simpa [hcom] using h)
    | some result => exact .comment (by simpa [hcom] using h)
  · split at h
    · split at h
      · rename_i d ds _
        have hfrac : fraction (d :: ds) = (kind, n) := Except.ok.inj h
        have := @NextCase.fraction level '.' (d :: ds) rfl
        rwa [hfrac] at this
      · exact operatorOrWord_cases h
    · exact operatorOrWord_cases h
  · split at h
    · rename_i hquote
      cases h
      exact .charLiteral hquote
    · cases h
  · exact .stringLiteral h
  · exact operatorOrWord_cases h

/-! ## Kinds by case -/

theorem isLiteral_intSuffix (cs : List Char) : (intSuffix cs).1.isLiteral = true := by
  unfold intSuffix
  split <;> rfl

theorem isLiteral_floatSuffix (cs : List Char) : (floatSuffix cs).1.isLiteral = true := by
  unfold floatSuffix
  split <;> rfl

theorem isLiteral_endNumber (floating : Bool) (n : Nat) (cs : List Char) :
    (endNumber floating n cs).1.isLiteral = true := by
  cases floating with
  | false => exact isLiteral_intSuffix _
  | true => exact isLiteral_floatSuffix _

theorem isLiteral_number (c : Char) (cs : List Char) : (number c cs).1.isLiteral = true := by
  unfold number
  split
  · split
    · exact isLiteral_endNumber _ _ _
    · exact isLiteral_endNumber _ _ _
    · exact isLiteral_endNumber _ _ _
    · exact isLiteral_endNumber _ _ _
    · exact isLiteral_endNumber _ _ _
  · exact isLiteral_endNumber _ _ _

theorem string_kind (h : string level cs = .ok (kind, n)) :
    kind = .stringLiteral ∨ kind = .textBlock := by
  unfold string at h
  simp only at h
  split at h
  · split at h
    · split at h
      · cases h
        exact .inr rfl
      · cases h
    · split at h
      · cases h
        exact .inl rfl
      · cases h
  · split at h
    · cases h
      exact .inl rfl
    · cases h

theorem isLiteral_string (h : string level cs = .ok (kind, n)) : kind.isLiteral = true := by
  rcases string_kind h with rfl | rfl <;> rfl

theorem isComment_comment (h : comment? level cs = some (.ok (kind, n))) :
    kind.isComment = true := by
  unfold comment? at h
  split at h
  · simp only [Option.some.injEq, Except.ok.injEq, Prod.mk.injEq] at h
    rw [← h.1]
    split
    · split <;> rfl
    · rfl
  · simp only [Option.some.injEq] at h
    split at h
    · simp only [Except.ok.injEq, Prod.mk.injEq] at h
      rw [← h.1]
      split <;> rfl
    · cases h
  · cases h

theorem wordKind_mem (level : LanguageLevel) (word : String) :
    wordKind level word = .ident ∨ ∃ entry ∈ keywords, entry.2.1 = wordKind level word := by
  unfold wordKind
  split
  · rename_i k hfind
    exact .inr ⟨_, List.mem_of_find?_eq_some hfind, rfl⟩
  · rename_i k feature hfind
    split
    · exact .inr ⟨_, List.mem_of_find?_eq_some hfind, rfl⟩
    · exact .inl rfl
  · exact .inl rfl

theorem isKeyword_of_mem_keywords :
    ∀ entry ∈ keywords, entry.2.1.isKeyword = true := by decide

/-- A word is a name or a keyword. -/
theorem wordKind_cases (level : LanguageLevel) (word : String) :
    wordKind level word = .ident ∨ (wordKind level word).isKeyword = true := by
  rcases wordKind_mem level word with h | ⟨entry, hmem, h⟩
  · exact .inl h
  · exact .inr (h ▸ isKeyword_of_mem_keywords entry hmem)

/-- What the table of operators promises of each of its entries. -/
theorem operators_entry : ∀ entry ∈ operators, entry.2.isTrivia = false ∧
    entry.2 ≠ .endOfFile ∧ entry.1 ≠ [] ∧
    (entry.2.startsWithGt = true → TokenKind.ofGtText? (String.ofList entry.1) = some entry.2) := by
  decide

theorem operatorAt?_mem {text : List Char} (h : operatorAt? cs = some (text, kind)) :
    (text, kind) ∈ operators ∧ text <+: cs := by
  refine ⟨List.mem_of_find?_eq_some h, ?_⟩
  have := List.find?_some h
  simpa using this

/-- The characters that an operator takes are the operator itself. -/
theorem take_operator {text : List Char} (h : operatorAt? (c :: cs) = some (text, kind)) :
    c :: cs.take (text.length - 1) = text := by
  obtain ⟨hmem, rest, hrest⟩ := operatorAt?_mem h
  obtain ⟨-, -, hne, -⟩ := operators_entry _ hmem
  cases text with
  | nil => exact absurd rfl hne
  | cons d ds =>
    obtain ⟨rfl, rfl⟩ : d = c ∧ ds ++ rest = cs := by simpa using hrest
    simp

/-- A lexeme is blank, a comment, a literal, a word or an operator of the table. -/
theorem next_kind (h : next level c cs = .ok (kind, n)) :
    (kind = .whitespace ∧ isBlank c = true ∧ n = countWhile isBlank cs) ∨
    kind.isComment = true ∨ kind.isLiteral = true ∨ kind = .ident ∨ kind.isKeyword = true ∨
    (c :: cs.take n, kind) ∈ operators := by
  cases next_cases h with
  | blanks hblank => exact .inl ⟨rfl, hblank, rfl⟩
  | comment hcom => exact .inr (.inl (isComment_comment hcom))
  | number => exact .inr (.inr (.inl (isLiteral_number c cs)))
  | fraction => exact .inr (.inr (.inl (isLiteral_endNumber true _ cs)))
  | charLiteral => exact .inr (.inr (.inl rfl))
  | stringLiteral hstr => exact .inr (.inr (.inl (isLiteral_string hstr)))
  | word => exact .inr (.inr (.inr ((wordKind_cases _ _).imp_right .inl)))
  | operator hop =>
    rw [take_operator hop]
    exact .inr (.inr (.inr (.inr (.inr (operatorAt?_mem hop).1))))

theorem next_kind_ne_endOfFile (h : next level c cs = .ok (kind, n)) : kind ≠ .endOfFile := by
  rintro rfl
  rcases next_kind h with ⟨h, -⟩ | h | h | h | h | h
  · exact absurd h (by decide)
  · exact absurd h (by decide)
  · exact absurd h (by decide)
  · exact absurd h (by decide)
  · exact absurd h (by decide)
  · exact (operators_entry _ h).2.1 rfl

/-- A lexeme that starts with a closing angle bracket is spelled as its kind says. -/
theorem next_gtText (h : next level c cs = .ok (kind, n)) (hgt : kind.startsWithGt = true) :
    TokenKind.ofGtText? (String.ofList (c :: cs.take n)) = some kind := by
  have hfalse : ∀ {p : Prop}, kind.startsWithGt = false → p := fun h' => by simp [h'] at hgt
  rcases next_kind h with ⟨rfl, -⟩ | h | h | rfl | h | h
  · exact hfalse rfl
  · exact hfalse (TokenKind.not_startsWithGt_of_isComment h)
  · exact hfalse (TokenKind.not_startsWithGt_of_isLiteral h)
  · exact hfalse rfl
  · exact hfalse (TokenKind.not_startsWithGt_of_isKeyword h)
  · exact (operators_entry _ h).2.2.2 hgt

/-- Blanks consist of blank characters. -/
theorem next_blank (h : next level c cs = .ok (.whitespace, n)) :
    ∀ d ∈ c :: cs.take n, isBlank d = true := by
  rcases next_kind h with ⟨-, hc, rfl⟩ | h | h | h | h | h
  · intro d hd
    rw [take_countWhile] at hd
    rcases List.mem_cons.1 hd with rfl | hd
    · exact hc
    · exact List.all_eq_true.1 List.all_takeWhile d hd
  · exact absurd h (by decide)
  · exact absurd h (by decide)
  · exact absurd h (by decide)
  · exact absurd h (by decide)
  · cases (operators_entry _ h).1

end Lexeme

end JavaAnalysis
