import SqlTemplate.Proofs.Expr.Arrange
import SqlTemplate.Proofs.Expr.Running
import SqlTemplate.Proofs.Expr.Spelling
import SqlTemplate.Proofs.Outcome

/-!
# Written expressions

A tree is written by tokens that derive it, each in one of its spellings, with blanks between them
(`Tree.IsWrittenAs`).

**A written expression has the value of its tree** (`evaluateWith_of_written`): the text is read as
its tokens, the tokens are put into the postfix order of the tree, and running that gives what
recursion over the tree gives, with the same words looked up in the same order.

A minus sign before a numeral is read as a part of it only where an operand is expected.  In the
tokens of a tree every term stands at such a place (`Tree.Derives.termsPlaced`).
-/

namespace SqlTemplate.Expr

set_option autoImplicit false

/-! ## Blanks and tokens at the front -/

section

variable {source : String} {previous : Option Token} {offset : Nat} {behind : List Char}

/-- Blanks between tokens are skipped. -/
theorem tokensFrom_blanks {blanks : List Char} (blank : blanks.all Text.isBlank = true) :
    tokensFrom source previous offset (blanks ++ behind) =
      tokensFrom source previous (offset + blanks.length) behind := by
  induction blanks generalizing offset with
  | nil => rfl
  | cons c blanks ih =>
      obtain ⟨here, others⟩ := Bool.and_eq_true_iff.mp blank
      rw [List.cons_append, tokensFrom, if_pos here, ih others, List.length_cons]
      congr 1
      omega

/-- A token at the front is read, and then those behind it. -/
theorem tokensFrom_of_tokenAt {first : Char} {rest : List Char} {token : Token}
    (notBlank : Text.isBlank first = false)
    (reads : tokenAt source previous offset first (rest ++ behind) = .ok (token, rest.length)) :
    tokensFrom source previous offset (first :: rest ++ behind) =
      (tokensFrom source (some token) (offset + rest.length + 1) behind).map (token :: ·) := by
  rw [List.cons_append, tokensFrom, notBlank, if_neg Bool.false_ne_true, reads]
  show (tokensFrom source _ _ ((rest ++ behind).drop rest.length) >>= fun tokens => _) = _
  rw [List.drop_left, Outcome.bind_ok_eq_map]

end

/-! ## Tokens with blanks between them -/

/-- Spellings of tokens one after the other, with blanks between them and maybe around them.  What
spells a token may depend on the token before. -/
inductive Spaced (spells : Option Token → Token → List Char → Prop) :
    Option Token → List Token → List Char → Prop
  | nil {previous : Option Token} : Spaced spells previous [] []
  | blank {previous : Option Token} {tokens : List Token} {c : Char} {chars : List Char} :
      Text.isBlank c = true → Spaced spells previous tokens chars →
        Spaced spells previous tokens (c :: chars)
  | token {previous : Option Token} {token : Token} {tokens : List Token}
      {spelling behind : List Char} :
      spells previous token spelling → Spaced spells (some token) tokens behind → Ends behind →
        Spaced spells previous (token :: tokens) (spelling ++ behind)

/-- A token with a blank behind it, in front of others. -/
theorem Spaced.token_blank {spells : Option Token → Token → List Char → Prop}
    {previous : Option Token} {token : Token} {tokens : List Token} {spelling behind : List Char}
    {c : Char} (spelt : spells previous token spelling) (isBlank : Text.isBlank c = true)
    (others : Spaced spells (some token) tokens behind) :
    Spaced spells previous (token :: tokens) (spelling ++ c :: behind) :=
  .token spelt (.blank isBlank others) fun _ _ equal => by
    cases equal
    exact isBlank

/-- Spellings that are read as their tokens are read one after the other. -/
theorem tokensFrom_of_spaced {previous : Option Token} {tokens : List Token} {chars : List Char}
    (spaced : Spaced IsRead previous tokens chars) (source : String) (offset : Nat) :
    tokensFrom source previous offset chars = .ok tokens := by
  induction spaced generalizing offset with
  | nil => rw [tokensFrom]
  | blank isBlank _ ih => rw [tokensFrom, if_pos isBlank, ih]
  | token isRead _ ends ih =>
      obtain ⟨c, rest, rfl, notBlank, reads⟩ := isRead
      rw [tokensFrom_of_tokenAt notBlank (reads source offset _ ends), ih]
      rfl

/-- Whether every term among tokens stands where an operand is expected. -/
def TermsPlaced : Option Token → List Token → Prop
  | _, [] => True
  | previous, token :: tokens =>
      (∀ leaf, token = .term leaf → expectsOperand previous = true) ∧
        TermsPlaced (some token) tokens

/-- Signed spellings are read as their tokens if the terms stand where operands are expected. -/
theorem Spaced.isRead {previous : Option Token} {tokens : List Token} {chars : List Char}
    (spaced : Spaced (fun _ => SpeltSigned) previous tokens chars)
    (placed : TermsPlaced previous tokens) : Spaced IsRead previous tokens chars := by
  induction spaced with
  | nil => exact .nil
  | blank isBlank _ ih => exact .blank isBlank (ih placed)
  | token spelt _ ends ih => exact .token (spelt.isRead placed.1) (ih placed.2) ends

namespace Tree

/-- In the tokens of a tree every term stands where an operand is expected, and behind them none
is. -/
theorem Derives.termsPlaced {level : Nat} {tree : Tree} {tokens : List Token}
    (derives : Derives level tree tokens) {previous : Option Token}
    (expects : expectsOperand previous = true) {more : List Token}
    (behind : ∀ last, expectsOperand (some last) = false → TermsPlaced (some last) more) :
    TermsPlaced previous (tokens ++ more) := by
  induction derives generalizing previous more with
  | term leaf => exact ⟨fun _ _ => expects, behind _ rfl⟩
  | group _ ih =>
      rw [List.append_assoc, List.cons_append]
      exact ⟨nofun, ih rfl fun _ _ => ⟨nofun, behind _ rfl⟩⟩
  | complement _ ih => exact ⟨nofun, ih rfl behind⟩
  | binary _ _ _ leftIH rightIH =>
      rw [List.append_assoc]
      exact leftIH expects fun _ _ => ⟨nofun, rightIH rfl behind⟩

theorem Derives.ne_nil {level : Nat} {tree : Tree} {tokens : List Token}
    (derives : Derives level tree tokens) : tokens ≠ [] := by
  cases derives with
  | term leaf => exact List.cons_ne_nil _ _
  | group _ => exact List.cons_ne_nil _ _
  | complement _ => exact List.cons_ne_nil _ _
  | binary _ _ _ => exact List.append_ne_nil_of_right_ne_nil _ (List.cons_ne_nil _ _)

/-! ## Written expressions -/

/-- A text that writes a tree: tokens that derive it, in signed spellings with blanks between. -/
def IsWrittenAs (tree : Tree) (text : String) : Prop :=
  ∃ tokens, Derives 1 tree tokens ∧ Spaced (fun _ => SpeltSigned) none tokens text.toList

variable {σ : Type}

/-- The truth value of a tree; any other value is a fault. -/
def holds (lookup : Lookup σ) (tree : Tree) : Evaluation σ Bool := do
  match ← tree.evaluate lookup with
  | .truth value => pure value
  | other => .ofExcept (.error (.fault (.notBoolean other.kind)))

/-- Tokens that derive a tree are compiled to its postfix order. -/
theorem Derives.compile {tree : Tree} {tokens : List Token} {text : String}
    (derives : Derives 1 tree tokens) (tokenized : tokenize text = .ok tokens) :
    compile text = .ok tree.steps := by
  have someToken : ¬ tokens.isEmpty = true := mt List.isEmpty_iff.mp derives.ne_nil
  rw [Expr.compile, tokenized]
  show (if tokens.isEmpty then _ else _) = _
  rw [if_neg someToken, toPostfix, arrange?_derives derives]

/-- A written tree is compiled to its postfix order. -/
theorem IsWrittenAs.compile {tree : Tree} {text : String} (written : tree.IsWrittenAs text) :
    compile text = .ok tree.steps := by
  obtain ⟨tokens, derives, spaced⟩ := written
  have placed : TermsPlaced none tokens := by
    have placed : TermsPlaced none (tokens ++ []) := derives.termsPlaced rfl fun _ _ => trivial
    rwa [List.append_nil] at placed
  exact derives.compile (tokensFrom_of_spaced (spaced.isRead placed) text 0)

/-- The truth value of a tree is the verdict on a stack with its value alone. -/
theorem holds_eq (lookup : Lookup σ) (tree : Tree) :
    tree.holds lookup =
      tree.evaluate lookup >>= fun value => .ofExcept (reported (verdict [value])) := by
  rw [holds]
  congr 1
  funext value
  cases value <;> rfl

/-- A text that is compiled to the postfix order of a tree has its value. -/
theorem evaluateWith_of_compile {tree : Tree} {source : String}
    (compiles : Expr.compile source = .ok tree.steps) (lookup : Lookup σ) :
    evaluateWith lookup source = tree.holds lookup := by
  rw [evaluateWith, compiles, holds_eq]
  show runSteps lookup [] tree.steps >>= (fun stack => .ofExcept (reported (verdict stack))) = _
  rw [runSteps_steps_alone, bind_assoc]
  rfl

/-- No verdict is aborted, so a tree is aborted as its evaluation is. -/
theorem holds_eq_aborted_iff (lookup : Lookup σ) (tree : Tree) (state : σ) :
    (tree.holds lookup state).outcome = .error .aborted ↔ tree.Overflows lookup state := by
  rw [holds_eq, Evaluation.outcome_bind_eq_error_iff, ← evaluate_eq_aborted_iff]
  refine or_iff_left ?_
  rintro ⟨value, _, aborts⟩
  exact Outcome.reported_ne_aborted _ aborts

end Tree

/-- **A written expression has the value of its tree**, or the same fault, whatever state the lookup
starts in, and leaves it in the same state.  The words that are looked up are the words of the tree
from left to right, all of them if the tree has a value.  The evaluation is aborted exactly if that
of the tree comes to a remainder that overflows. -/
theorem evaluateWith_of_written {σ : Type} (lookup : Lookup σ) {tree : Tree} {text : String}
    (written : tree.IsWrittenAs text) :
    evaluateWith lookup text = tree.holds lookup ∧
      ∀ state, (evaluateWith lookup text state).asked <+: tree.words ∧
        (∀ value, (tree.evaluate lookup state).outcome = .ok value →
          (evaluateWith lookup text state).asked = tree.words) ∧
        ((evaluateWith lookup text state).outcome = .error .aborted ↔
          tree.Overflows lookup state) := by
  have evaluates := Tree.evaluateWith_of_compile written.compile lookup
  have asks := tree.evaluate_asksFor lookup
  refine ⟨evaluates, fun state => ?_⟩
  -- The verdict on the value asks for no word.
  have asked : (evaluateWith lookup text state).asked = (tree.evaluate lookup state).asked := by
    rw [evaluates, Tree.holds_eq]
    exact Evaluation.asked_bind_ofExcept ..
  rw [asked, evaluates]
  exact ⟨asks.isPrefixOf state, fun value => asks.all_of_ok, tree.holds_eq_aborted_iff lookup state⟩

/-- The numeral of one digit. -/
def digitNumeral (digit : Char) (isDigit : digit.isDigit = true) : Decimal.Numeral where
  whole := [digit]
  fraction? := none
  exponent? := none
  wholeDigits := List.forall_mem_singleton.mpr isDigit
  fractionDigits := nofun
  someDigit := List.cons_ne_nil _ _

/-- The product of a difference, compared, and a text compared with another one. -/
def limitTree : Tree :=
  .binary .and
    (.binary .greater
      (.binary .multiply
        (.binary .subtract (.term (.word "age"))
          (.term (.number (-(digitNumeral '1' rfl).value))))
        (.term (.number (digitNumeral '2' rfl).value)))
      (.term (.word "limit")))
    (.binary .notEqual (.term (.word "name")) (.term (.text "O'Hara")))

theorem limitTree_isWrittenAs :
    limitTree.IsWrittenAs "( age - -1 ) * 2\t> limit and name  != 'O\\'Hara'" := by
  have name (word : String) (isName : Text.isName word.toList = true)
      (free : word ∉ keywords.map Prod.fst) : SpeltSigned (.term (.word word)) word.toList :=
    .unsigned (.word (isWord_of_isName isName) free)
  have sign (operator : BinaryOperator) :
      SpeltSigned (.operator (.binary operator)) operator.symbol.toList :=
    .unsigned (.sign (.binary operator))
  have difference : Tree.Derives 1 _ _ := @Tree.Derives.binary 1 .subtract _ _ _ _ (by decide)
    (.term (.word "age")) (.term (.number (-(digitNumeral '1' rfl).value)))
  have product : Tree.Derives 2 _ _ := @Tree.Derives.binary 2 .multiply _ _ _ _ (by decide)
    (.group difference) (.term (.number (digitNumeral '2' rfl).value))
  have bound : Tree.Derives 1 _ _ := @Tree.Derives.binary 1 .greater _ _ _ _ (by decide)
    product (.term (.word "limit"))
  have condition : Tree.Derives 1 limitTree _ := @Tree.Derives.binary 1 .and _ _ _ _ (by decide)
    bound (@Tree.Derives.binary 2 .notEqual _ _ _ _ (by decide) (.term (.word "name"))
      (.term (.text "O'Hara")))
  have conjunction : SpeltSigned (.operator (.binary .and)) "and".toList :=
    .unsigned (.keyword (by simp [keywords]))
  have space : Text.isBlank ' ' = true := rfl
  have tab : Text.isBlank '\t' = true := rfl
  have spaced : Spaced (fun _ => SpeltSigned) none _ _ :=
    .token_blank (.unsigned .openParen) space <|
    .token_blank (name "age" (by decide) (by decide)) space <|
    .token_blank (sign .subtract) space <|
    .token_blank (.negative (digitNumeral '1' rfl)) space <|
    .token_blank (.unsigned .closeParen) space <|
    .token_blank (sign .multiply) space <|
    .token_blank (.unsigned (.number (digitNumeral '2' rfl))) tab <|
    .token_blank (sign .greater) space <|
    .token_blank (name "limit" (by decide) (by decide)) space <|
    .token_blank conjunction space <|
    .token_blank (name "name" (by decide) (by decide)) space <| .blank space <|
    .token_blank (sign .notEqual) space <|
    .token (.unsigned (.text "O'Hara" (.inr rfl))) .nil ends_nil
  exact ⟨_, condition, spaced⟩

/-- A lookup that numbers the words it is asked for: a word that is asked for again has another
value. -/
def numberingLookup : Lookup Nat := fun _ count => (.ok (some (.ofNat count)), count + 1)

theorem evaluateWith_of_written_limitTree :
    limitTree.IsWrittenAs "( age - -1 ) * 2\t> limit and name  != 'O\\'Hara'" ∧
      evaluateWith numberingLookup "( age - -1 ) * 2\t> limit and name  != 'O\\'Hara'" =
          limitTree.holds numberingLookup ∧
        ∀ state,
          (evaluateWith numberingLookup
            "( age - -1 ) * 2\t> limit and name  != 'O\\'Hara'" state).asked <+: limitTree.words ∧
          (∀ value, (limitTree.evaluate numberingLookup state).outcome = .ok value →
            (evaluateWith numberingLookup
              "( age - -1 ) * 2\t> limit and name  != 'O\\'Hara'" state).asked =
                limitTree.words) ∧
          ((evaluateWith numberingLookup
              "( age - -1 ) * 2\t> limit and name  != 'O\\'Hara'" state).outcome =
                .error .aborted ↔
            limitTree.Overflows numberingLookup state) :=
  ⟨limitTree_isWrittenAs, evaluateWith_of_written _ limitTree_isWrittenAs⟩

end SqlTemplate.Expr
