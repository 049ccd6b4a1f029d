import SqlTemplate.Proofs.Expr.Reading

/-!
# Rendered tokens

Tokens are rendered by one of their spellings each, with blanks between every two of them
(`IsRenderedAs`).  The tokens need not be an expression: any of them may follow any other.  Behind a
text in quotes not even a blank is needed.

**Reading undoes rendering** (`tokenize_rendered`).  A rendering is read as the tokens that it
renders, and so it renders no others.  A spelling ends at the blank behind it, but a text in quotes
ends at its own closing quote: its content, once escaped, cannot close it, and nothing that follows
can get into it (`tokenAt_text`).
-/

namespace SqlTemplate.Expr

set_option autoImplicit false

/-- Spellings of tokens one behind the other, with blanks between every two.  A gap may be empty
only behind a text in quotes. -/
inductive IsRenderedAs : List Token → List Char → Prop
  | nil : IsRenderedAs [] []
  | single {token : Token} {spelling : List Char} :
      Spelt token spelling → IsRenderedAs [token] spelling
  | join (gap : List Char) {token next : Token} {tokens : List Token}
      {spelling behind : List Char} :
      Spelt token spelling → gap.all Text.isBlank = true →
        (gap = [] → ∃ content, token = .term (.text content)) →
          IsRenderedAs (next :: tokens) behind →
            IsRenderedAs (token :: next :: tokens) (spelling ++ (gap ++ behind))

/-- The spellings of a text are those in quotes. -/
theorem Spelt.exists_quote {content : String} {spelling : List Char}
    (spelt : Spelt (.term (.text content)) spelling) :
    ∃ quote, (quote = '"' ∨ quote = '\'') ∧
      spelling = quote :: (escaped quote content.toList ++ [quote]) := by
  cases spelt with
  | text _ isQuote => exact ⟨_, isQuote, rfl⟩
  | keyword listed => simp [keywords] at listed

/-- A gap that is not empty ends the spelling in front of it. -/
theorem ends_gap {gap : List Char} (some : gap ≠ []) (blank : gap.all Text.isBlank = true)
    (behind : List Char) : Ends (gap ++ behind) := by
  intro c after equal
  cases gap with
  | nil => exact absurd rfl some
  | cons first gap =>
      cases equal
      exact (Bool.and_eq_true_iff.mp blank).1

section

variable {source : String} {previous : Option Token} {offset : Nat} {token : Token}
  {spelling behind : List Char}

/-- A spelling is read as its token where it ends, and then what stands behind it. -/
theorem Spelt.tokensFrom_append (spelt : Spelt token spelling) (ends : Ends behind) :
    ∃ later, tokensFrom source previous offset (spelling ++ behind) =
      (tokensFrom source (some token) later behind).map (token :: ·) := by
  obtain ⟨c, rest, rfl, notBlank, reads⟩ := spelt.isRead previous
  exact ⟨_, tokensFrom_of_tokenAt notBlank (reads source offset behind ends)⟩

/-- A text in quotes is read as one token, whatever stands behind it. -/
theorem Spelt.tokensFrom_text_append {content : String}
    (spelt : Spelt (.term (.text content)) spelling) :
    ∃ later, tokensFrom source previous offset (spelling ++ behind) =
      (tokensFrom source (some (.term (.text content))) later behind).map
        (.term (.text content) :: ·) := by
  obtain ⟨quote, isQuote, rfl⟩ := spelt.exists_quote
  exact ⟨_, tokensFrom_of_tokenAt (isBlank_of_isQuote isQuote)
    (tokenAt_text isQuote content source previous offset behind)⟩

end

/-- A rendering is read as the tokens that it renders, wherever it stands. -/
theorem IsRenderedAs.tokensFrom {tokens : List Token} {chars : List Char}
    (rendered : IsRenderedAs tokens chars) (source : String) (previous : Option Token)
    (offset : Nat) : tokensFrom source previous offset chars = .ok tokens := by
  induction rendered generalizing previous offset with
  | nil => rw [Expr.tokensFrom]
  | single spelt =>
      obtain ⟨later, reads⟩ := spelt.tokensFrom_append ends_nil
      rw [List.append_nil] at reads
      rw [reads, Expr.tokensFrom]
      rfl
  | @join gap token _ _ spelling behind spelt blank isText _ ih =>
      have reads : ∃ later, Expr.tokensFrom source previous offset (spelling ++ (gap ++ behind)) =
          (Expr.tokensFrom source (some token) later (gap ++ behind)).map (token :: ·) := by
        -- Without a gap the spelling has to end by itself, and a text in quotes does.
        by_cases none : gap = []
        · obtain ⟨content, rfl⟩ := isText none
          exact spelt.tokensFrom_text_append
        · exact spelt.tokensFrom_append (ends_gap none blank behind)
      obtain ⟨later, reads⟩ := reads
      rw [reads, tokensFrom_blanks blank, ih]
      rfl

/-- **Reading undoes rendering.**  A rendering of tokens is read as these tokens, all of them and in
their order, and so it is a rendering of no other tokens. -/
theorem tokenize_rendered {tokens : List Token} {text : String}
    (rendered : IsRenderedAs tokens text.toList) :
    tokenize text = .ok tokens ∧ ∀ others, IsRenderedAs others text.toList → others = tokens := by
  have reads := rendered.tokensFrom text none 0
  refine ⟨reads, fun others renders => ?_⟩
  have readsOthers := renders.tokensFrom text none 0
  exact Except.ok.inj (readsOthers.symm.trans reads)

/-- Tokens that are no expression, with a quote and a backslash at the end of a text. -/
def looseTokens : List Token :=
  [.closeParen, .term (.text "it's (\\\""), .term (.text "x"), .operator .complement,
    .term (.number (digitNumeral '3' rfl).value), .operator (.binary .or),
    .term (.word "list[i].size()")]

theorem looseTokens_isRenderedAs :
    IsRenderedAs looseTokens ")  \"it's (\\\\\\\"\"'x'\t~ 3 or list[i].size()".toList := by
  have listWord : IsWord "list[i].size()".toList :=
    .mk (by decide) (.part rfl (.part rfl (.part rfl (.part rfl (.part rfl (.part rfl (.part rfl
      (.part rfl (.part rfl (.part rfl (.part rfl (.call .nil))))))))))))
  have connective : Spelt (.operator (.binary .or)) "or".toList := .keyword (by simp [keywords])
  exact .join "  ".toList .closeParen rfl (by simp) <|
    .join [] (.text "it's (\\\"" (.inl rfl)) rfl (fun _ => ⟨_, rfl⟩) <|
    .join ['\t'] (.text "x" (.inr rfl)) rfl (by simp) <|
    .join [' '] (.sign .complement) rfl (by simp) <|
    .join [' '] (.number (digitNumeral '3' rfl)) rfl (by simp) <|
    .join [' '] connective rfl (by simp) <|
    .single (.word listWord (by decide))

theorem tokenize_rendered_looseTokens :
    IsRenderedAs looseTokens ")  \"it's (\\\\\\\"\"'x'\t~ 3 or list[i].size()".toList ∧
      tokenize ")  \"it's (\\\\\\\"\"'x'\t~ 3 or list[i].size()" = .ok looseTokens ∧
        ∀ others,
          IsRenderedAs others ")  \"it's (\\\\\\\"\"'x'\t~ 3 or list[i].size()".toList →
            others = looseTokens :=
  ⟨looseTokens_isRenderedAs, tokenize_rendered looseTokens_isRenderedAs⟩

end SqlTemplate.Expr
