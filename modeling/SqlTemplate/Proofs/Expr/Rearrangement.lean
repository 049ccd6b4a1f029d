import SqlTemplate.Proofs.Expr.Placement
import SqlTemplate.Proofs.Expr.Running

/-!
# Tokens that change their places

Putting tokens into postfix order changes their places and nothing else
(`toPostfix_rearranges`).  It fails exactly if the parentheses are not balanced, whatever the other
tokens are.  Else every token that is no parenthesis becomes one step, terms keep their order, and
what stands between two parentheses comes before all that stands behind them.

Equal tokens may occur in several places, so a token is followed together with a mark, which is in
the end its place in the expression.  How tightly operators bind plays no part here.  It decides
only how many operators a new one releases from the top of those that wait, and `Moves` leaves this
number open.  So the results hold for any choice of precedence levels.

The reason for the order of groups is that a group comes out as one block (`Moves.exists_block`).
What waits below an open parenthesis stays until the parenthesis is closed
(`Moves.keeps_below`), and the operators of the group itself come out then.
-/

namespace SqlTemplate.Expr

set_option autoImplicit false

/-! ## Parentheses that are not balanced -/

namespace Token

/-- Whether a token opens a group. -/
def isOpening : Token → Bool
  | .openParen => true
  | _ => false

/-- Whether a token closes a group. -/
def isClosing : Token → Bool
  | .closeParen => true
  | _ => false

/-- Whether a token is a parenthesis. -/
def isParenthesis (token : Token) : Bool := token.isOpening || token.isClosing

/-- Whether a token is a term. -/
def isTerm : Token → Bool
  | .term _ => true
  | _ => false

end Token

/-- Parentheses are not balanced if more are closed than opened somewhere from the left, or if not
as many are closed as opened. -/
def IsUnbalanced (tokens : List Token) : Prop :=
  (∃ front, front <+: tokens ∧ front.countP Token.isOpening < front.countP Token.isClosing) ∨
    tokens.countP Token.isOpening ≠ tokens.countP Token.isClosing

/-- Parentheses are balanced behind open ones if nowhere from the left more are closed than opened,
and as many at the end. -/
theorem isBalanced_iff {depth : Nat} {tokens : List Token} :
    isBalanced depth tokens = true ↔
      (∀ front, front <+: tokens →
        front.countP Token.isClosing ≤ depth + front.countP Token.isOpening) ∧
        depth + tokens.countP Token.isOpening = tokens.countP Token.isClosing := by
  induction tokens generalizing depth with
  | nil => simp [isBalanced]
  | cons token tokens ih =>
      -- A front has no token, or it is a front of the other tokens behind the first one.
      have fronts (holds : List Token → Prop) (none : holds []) :
          (∀ front, front <+: token :: tokens → holds front) ↔
            ∀ front, front <+: tokens → holds (token :: front) := by
        constructor
        · intro all front isFront
          exact all _ (List.cons_prefix_cons.mpr ⟨rfl, isFront⟩)
        · intro all front isFront
          rcases List.prefix_cons_iff.mp isFront with rfl | ⟨others, rfl, isOther⟩
          · exact none
          · exact all others isOther
      rw [fronts _ (Nat.zero_le _)]
      cases token with
      | openParen =>
          rw [isBalanced, ih]
          simp [List.countP_cons, Token.isOpening, Token.isClosing, Nat.add_assoc, Nat.add_comm 1]
      | closeParen =>
          cases depth with
          | zero =>
              refine iff_of_false (by simp [isBalanced]) fun balanced => ?_
              have first := balanced.1 [] List.nil_prefix
              simp [Token.isOpening, Token.isClosing] at first
          | succ depth =>
              rw [isBalanced, ih]
              simp [List.countP_cons, Token.isOpening, Token.isClosing, Nat.add_right_comm depth 1]
      | operator operator =>
          rw [isBalanced, ih]
          simp [Token.isOpening, Token.isClosing]
      | term leaf =>
          rw [isBalanced, ih]
          simp [Token.isOpening, Token.isClosing]

theorem isUnbalanced_iff {tokens : List Token} :
    IsUnbalanced tokens ↔ isBalanced 0 tokens = false := by
  rw [← Bool.not_eq_true, isBalanced_iff, IsUnbalanced]
  simp only [Nat.zero_add]
  rw [not_and_or]
  simp

/-! ## Tokens with marks -/

/-- The token that became a step. -/
def Step.token : Step → Token
  | .push term => .term term
  | .apply operator => .operator operator

section Marks

variable {ι : Type}

/-- The tokens that are no parentheses. -/
def items (tokens : List (Token × ι)) : List (Token × ι) :=
  tokens.filter fun token => !token.1.isParenthesis

/-- The tokens that are terms. -/
def terms (tokens : List (Token × ι)) : List (Token × ι) :=
  tokens.filter fun token => token.1.isTerm

/-- The tokens that became steps. -/
def origins (steps : List (Step × ι)) : List (Token × ι) :=
  steps.map fun step => (step.1.token, step.2)

/-- Operators that wait. -/
def waits (operators : List (Operator × ι)) : List (Waiting × ι) :=
  operators.map fun operator => (.operator operator.1, operator.2)

/-- Operators that are released. -/
def applied (operators : List (Operator × ι)) : List (Step × ι) :=
  operators.map fun operator => (.apply operator.1, operator.2)

/-- The tokens of the operators that wait. -/
def pending : List (Waiting × ι) → List (Token × ι)
  | [] => []
  | (.openParen, _) :: waiting => pending waiting
  | (.operator operator, mark) :: waiting => (.operator operator, mark) :: pending waiting

@[simp] theorem origins_append (first second : List (Step × ι)) :
    origins (first ++ second) = origins first ++ origins second := List.map_append

@[simp] theorem terms_append (front back : List (Token × ι)) :
    terms (front ++ back) = terms front ++ terms back := List.filter_append ..

@[simp] theorem pending_waits_append (operators : List (Operator × ι))
    (waiting : List (Waiting × ι)) :
    pending (waits operators ++ waiting) = origins (applied operators) ++ pending waiting := by
  induction operators with
  | nil => rfl
  | cons operator operators ih => exact congrArg _ ih

@[simp] theorem pending_waits (operators : List (Operator × ι)) :
    pending (waits operators) = origins (applied operators) := by
  simpa [pending] using pending_waits_append operators []

/-- No operator is a term. -/
@[simp] theorem terms_origins_applied (operators : List (Operator × ι)) :
    terms (origins (applied operators)) = [] := by
  induction operators with
  | nil => rfl
  | cons operator operators ih => exact ih

/-- An open parenthesis below operators is below every operator of them. -/
theorem exists_top_of_waits {operators : List (Operator × ι)}
    {waiting top below : List (Waiting × ι)} {mark : ι}
    (split : waits operators ++ waiting = top ++ (.openParen, mark) :: below) :
    ∃ rest, top = waits operators ++ rest ∧ waiting = rest ++ (.openParen, mark) :: below := by
  induction operators generalizing top with
  | nil => exact ⟨top, rfl, split⟩
  | cons operator operators ih =>
      cases top with
      | nil => cases split
      | cons first top =>
          obtain ⟨rfl, others⟩ := List.cons.inj split
          obtain ⟨rest, rfl, remains⟩ := ih others
          exact ⟨rest, rfl, remains⟩

theorem openCount_waits_append (operators : List (Operator × ι)) (waiting : List (Waiting × ι)) :
    openCount ((waits operators ++ waiting).map Prod.fst) = openCount (waiting.map Prod.fst) := by
  induction operators with
  | nil => rfl
  | cons operator operators ih => exact ih

/-- Where no parenthesis is open, operators wait. -/
theorem exists_waits_of_openCount {waiting : List (Waiting × ι)}
    (none : openCount (waiting.map Prod.fst) = 0) : ∃ operators, waiting = waits operators := by
  induction waiting with
  | nil => exact ⟨[], rfl⟩
  | cons first waiting ih =>
      obtain ⟨_ | operator, mark⟩ := first
      · cases none
      · obtain ⟨operators, rfl⟩ := ih none
        exact ⟨(operator, mark) :: operators, rfl⟩

/-! ## Moves -/

/-- What reading tokens does to those that wait: `Moves waiting tokens out left` holds if the steps
`out` can come out while the tokens are read, so that `left` waits in the end.  A new operator may
release any operators from the top. -/
inductive Moves :
    List (Waiting × ι) → List (Token × ι) → List (Step × ι) → List (Waiting × ι) → Prop
  | nil {waiting : List (Waiting × ι)} : Moves waiting [] [] waiting
  | openParen {waiting left : List (Waiting × ι)} {tokens : List (Token × ι)}
      {out : List (Step × ι)} {mark : ι} :
      Moves ((.openParen, mark) :: waiting) tokens out left →
        Moves waiting ((.openParen, mark) :: tokens) out left
  | closeParen {waiting left : List (Waiting × ι)} {tokens : List (Token × ι)}
      {out : List (Step × ι)} {mark opening : ι} (operators : List (Operator × ι)) :
      Moves waiting tokens out left →
        Moves (waits operators ++ (.openParen, opening) :: waiting) ((.closeParen, mark) :: tokens)
          (applied operators ++ out) left
  | operator {waiting left : List (Waiting × ι)} {tokens : List (Token × ι)}
      {out : List (Step × ι)} {mark : ι} {new : Operator} (operators : List (Operator × ι)) :
      Moves ((.operator new, mark) :: waiting) tokens out left →
        Moves (waits operators ++ waiting) ((.operator new, mark) :: tokens)
          (applied operators ++ out) left
  | term {waiting left : List (Waiting × ι)} {tokens : List (Token × ι)}
      {out : List (Step × ι)} {mark : ι} {leaf : Term} :
      Moves waiting tokens out left →
        Moves waiting ((.term leaf, mark) :: tokens) ((.push leaf, mark) :: out) left

/-! ### Postfix order moves tokens -/

/-- What a new operator releases are operators on top. -/
theorem exists_of_release (new : Operator) (waiting : List (Waiting × ι)) :
    ∃ operators below, waiting = waits operators ++ below ∧
      release new (waiting.map Prod.fst) =
        ((applied operators).map Prod.fst, below.map Prod.fst) := by
  induction waiting with
  | nil => exact ⟨[], [], rfl, rfl⟩
  | cons first waiting ih =>
      obtain ⟨_ | top, mark⟩ := first
      · exact ⟨[], _, rfl, rfl⟩
      · rw [List.map_cons, release]
        split
        · obtain ⟨operators, below, rfl, releases⟩ := ih
          refine ⟨(top, mark) :: operators, below, rfl, ?_⟩
          rw [releases]
          rfl
        · exact ⟨[], (.operator top, mark) :: waiting, rfl, rfl⟩

/-- What a closing parenthesis releases are the operators above the open one. -/
theorem exists_of_closeGroup? {waiting : List (Waiting × ι)} {released : List Step}
    {rest : List Waiting} (closes : closeGroup? (waiting.map Prod.fst) = some (released, rest)) :
    ∃ operators opening below, waiting = waits operators ++ (.openParen, opening) :: below ∧
      released = (applied operators).map Prod.fst ∧ rest = below.map Prod.fst := by
  induction waiting generalizing released with
  | nil => cases closes
  | cons first waiting ih =>
      obtain ⟨_ | top, mark⟩ := first
      · cases closes
        exact ⟨[], mark, waiting, rfl, rfl, rfl⟩
      · obtain ⟨⟨more, _⟩, inner, same⟩ := Option.map_eq_some_iff.mp closes
        cases same
        obtain ⟨operators, opening, below, rfl, rfl, rfl⟩ := ih inner
        exact ⟨(top, mark) :: operators, opening, below, rfl, rfl, rfl⟩

/-- What the end releases are operators, and nothing else waits. -/
theorem exists_of_drain? {waiting : List (Waiting × ι)} {released : List Step}
    (drains : drain? (waiting.map Prod.fst) = some released) :
    ∃ operators, waiting = waits operators ∧ released = (applied operators).map Prod.fst := by
  induction waiting generalizing released with
  | nil =>
      cases drains
      exact ⟨[], rfl, rfl⟩
  | cons first waiting ih =>
      obtain ⟨_ | top, mark⟩ := first
      · cases drains
      · obtain ⟨more, inner, rfl⟩ := Option.map_eq_some_iff.mp drains
        obtain ⟨operators, rfl, rfl⟩ := ih inner
        exact ⟨(top, mark) :: operators, rfl, rfl⟩

/-- Tokens that have a postfix order are moved there, and operators wait at the end. -/
theorem exists_moves_of_arrange? {waiting : List (Waiting × ι)} {tokens : List (Token × ι)}
    {steps : List Step}
    (arranges : arrange? (waiting.map Prod.fst) (tokens.map Prod.fst) = some steps) :
    ∃ out operators, Moves waiting tokens out (waits operators) ∧
      steps = (out ++ applied operators).map Prod.fst := by
  induction tokens generalizing waiting steps with
  | nil =>
      obtain ⟨operators, rfl, rfl⟩ := exists_of_drain? arranges
      exact ⟨[], operators, .nil, rfl⟩
  | cons first tokens ih =>
      obtain ⟨token, mark⟩ := first
      cases token with
      | openParen =>
          obtain ⟨out, operators, moves, rfl⟩ := @ih ((.openParen, mark) :: waiting) _ arranges
          exact ⟨out, operators, .openParen moves, rfl⟩
      | closeParen =>
          rw [List.map_cons, arrange?] at arranges
          split at arranges
          · cases arranges
          · rename_i released rest closes
            obtain ⟨group, opening, below, rfl, rfl, rfl⟩ := exists_of_closeGroup? closes
            obtain ⟨more, others, rfl⟩ := Option.map_eq_some_iff.mp arranges
            obtain ⟨out, operators, moves, rfl⟩ := ih others
            exact ⟨applied group ++ out, operators, .closeParen group moves, by simp⟩
      | operator new =>
          obtain ⟨group, below, rfl, releases⟩ := exists_of_release new waiting
          rw [List.map_cons, arrange?, releases] at arranges
          obtain ⟨more, others, rfl⟩ := Option.map_eq_some_iff.mp arranges
          obtain ⟨out, operators, moves, rfl⟩ := @ih ((.operator new, mark) :: below) _ others
          exact ⟨applied group ++ out, operators, .operator group moves, by simp⟩
      | term leaf =>
          obtain ⟨more, others, rfl⟩ := Option.map_eq_some_iff.mp arranges
          obtain ⟨out, operators, moves, rfl⟩ := ih others
          exact ⟨(.push leaf, mark) :: out, operators, .term moves, rfl⟩

namespace Moves

variable {waiting left : List (Waiting × ι)} {tokens : List (Token × ι)} {out : List (Step × ι)}

/-! ### What moves keep -/

/-- What comes out and what waits afterwards are what waited and what was read, but for the
parentheses. -/
theorem perm (moves : Moves waiting tokens out left) :
    (origins out ++ pending left).Perm (pending waiting ++ items tokens) := by
  induction moves with
  | nil => simp [origins, items]
  | openParen _ ih => exact ih
  | closeParen operators _ ih =>
      rw [origins_append, pending_waits_append, List.append_assoc, List.append_assoc]
      exact ih.append_left _
  | operator operators _ ih =>
      rw [origins_append, pending_waits_append, List.append_assoc, List.append_assoc]
      exact (ih.trans List.perm_middle.symm).append_left _
  | term _ ih => exact (ih.cons _).trans List.perm_middle.symm

/-- Terms come out at once, so in their order. -/
theorem terms_eq (moves : Moves waiting tokens out left) :
    terms (origins out) = terms tokens := by
  induction moves with
  | nil => rfl
  | openParen _ ih => exact ih
  | closeParen operators _ ih =>
      rw [origins_append, terms_append, terms_origins_applied]
      exact ih
  | operator operators _ ih =>
      rw [origins_append, terms_append, terms_origins_applied]
      exact ih
  | term _ ih => exact congrArg (List.cons _) ih

/-! ### Groups -/

/-- Tokens that are read in two portions. -/
theorem exists_of_append {front back : List (Token × ι)}
    (moves : Moves waiting (front ++ back) out left) :
    ∃ first middle second, out = first ++ second ∧ Moves waiting front first middle ∧
      Moves middle back second left := by
  induction front generalizing waiting out with
  | nil => exact ⟨[], waiting, out, rfl, .nil, moves⟩
  | cons token front ih =>
      cases moves with
      | openParen moves =>
          obtain ⟨first, middle, second, rfl, before, behind⟩ := ih moves
          exact ⟨first, middle, second, rfl, .openParen before, behind⟩
      | closeParen operators moves =>
          obtain ⟨first, middle, second, rfl, before, behind⟩ := ih moves
          exact ⟨_, middle, second, (List.append_assoc ..).symm, .closeParen operators before,
            behind⟩
      | operator operators moves =>
          obtain ⟨first, middle, second, rfl, before, behind⟩ := ih moves
          exact ⟨_, middle, second, (List.append_assoc ..).symm, .operator operators before, behind⟩
      | term moves =>
          obtain ⟨first, middle, second, rfl, before, behind⟩ := ih moves
          exact ⟨_, middle, second, rfl, .term before, behind⟩

/-- What waits below an open parenthesis stays as long as the parenthesis is not closed. -/
theorem keeps_below (moves : Moves waiting tokens out left) (top : List (Waiting × ι))
    {below : List (Waiting × ι)} {mark : ι} (split : waiting = top ++ (.openParen, mark) :: below)
    (balanced : isBalanced (openCount (top.map Prod.fst)) (tokens.map Prod.fst) = true) :
    ∃ operators, left = waits operators ++ (.openParen, mark) :: below := by
  induction moves generalizing top with
  | nil =>
      obtain ⟨operators, rfl⟩ := exists_waits_of_openCount (eq_of_beq balanced)
      exact ⟨operators, split⟩
  | @openParen waiting _ _ _ inner _ ih =>
      exact ih ((.openParen, inner) :: top) (congrArg _ split) balanced
  | closeParen operators _ ih =>
      obtain ⟨rest, rfl, remains⟩ := exists_top_of_waits split
      rw [openCount_waits_append] at balanced
      cases rest with
      | nil => cases balanced
      | cons first rest =>
          obtain ⟨rfl, others⟩ := List.cons.inj remains
          exact ih rest others balanced
  | @operator waiting _ _ _ place new operators _ ih =>
      obtain ⟨rest, rfl, remains⟩ := exists_top_of_waits split
      rw [openCount_waits_append] at balanced
      exact ih ((.operator new, place) :: rest) (congrArg _ remains) balanced
  | term _ ih => exact ih top split balanced

/-- A closing parenthesis finds an open one below operators, and releases these. -/
theorem exists_of_closeParen {mark : ι}
    (moves : Moves waiting ((.closeParen, mark) :: tokens) out left) :
    ∃ operators opening below behind, waiting = waits operators ++ (.openParen, opening) :: below ∧
      out = applied operators ++ behind ∧ Moves below tokens behind left := by
  cases moves with
  | closeParen operators moves => exact ⟨operators, _, _, _, rfl, rfl, moves⟩

/-- **A group comes out as one block**, behind what came out before it was opened, and what waited
then waits still when it is closed. -/
theorem exists_block {before group behind : List (Token × ι)} {opening closing : ι}
    (moves : Moves waiting
      (before ++ (.openParen, opening) :: (group ++ (.closeParen, closing) :: behind)) out left)
    (balanced : isBalanced 0 (group.map Prod.fst) = true) :
    ∃ first middle block last, out = first ++ (block ++ last) ∧
      Moves waiting before first middle ∧ (origins block).Perm (items group) ∧
        Moves middle behind last left := by
  obtain ⟨first, middle, _, rfl, before, moves⟩ := moves.exists_of_append
  cases moves with
  | openParen moves =>
      obtain ⟨inside, atEnd, _, rfl, within, moves⟩ := moves.exists_of_append
      obtain ⟨operators, _, below, last, split, rfl, behind⟩ := moves.exists_of_closeParen
      obtain ⟨own, rfl⟩ := within.keeps_below [] rfl balanced
      -- Only operators wait above the parenthesis that was opened, so it is the one that is closed.
      obtain ⟨rest, same, remains⟩ := exists_top_of_waits split.symm
      have none : openCount ((waits own).map Prod.fst) = 0 := by
        simpa [openCount] using openCount_waits_append own []
      rw [same, openCount_waits_append] at none
      cases rest with
      | cons first rest =>
          obtain ⟨rfl, _⟩ := List.cons.inj remains
          cases none
      | nil =>
          obtain ⟨_, rfl⟩ := List.cons.inj remains
          rw [same, List.append_nil] at within
          have keeps := within.perm
          rw [pending_waits_append, ← List.append_assoc] at keeps
          refine ⟨first, below, inside ++ applied operators, last, by simp, before, ?_, behind⟩
          rw [origins_append]
          exact (List.perm_append_right_iff (pending below)).mp (keeps.trans List.perm_append_comm)

end Moves

end Marks

/-! ## Places -/

/-- The places of two parentheses that belong together: what stands between them is balanced. -/
def IsGroup (tokens : List Token) (opening closing : Nat) : Prop :=
  ∃ before group behind, tokens = before ++ .openParen :: (group ++ .closeParen :: behind) ∧
    isBalanced 0 group = true ∧ opening = before.length ∧
      closing = before.length + group.length + 1

/-- What putting tokens into postfix order does: each step has the place of the token that became
it.  All tokens but the parentheses become steps, terms keep their order, and what stands between
two parentheses that belong together comes before all that stands behind them. -/
structure Rearranges (tokens : List Token) (placed : List (Step × Nat)) : Prop where
  perm : (origins placed).Perm (items tokens.zipIdx)
  noParenthesis : ∀ token ∈ origins placed, token.1.isParenthesis = false
  terms_eq : terms (origins placed) = terms tokens.zipIdx
  group_first : ∀ opening closing, IsGroup tokens opening closing →
    ∀ inner ∈ placed, ∀ later ∈ placed, opening < inner.2 → inner.2 < closing →
      closing < later.2 → [inner, later].Sublist placed

/-- The tokens around and in a group with their places. -/
theorem zipIdx_group (before group behind : List Token) :
    (before ++ .openParen :: (group ++ .closeParen :: behind)).zipIdx =
      before.zipIdx ++ (.openParen, before.length) ::
        (group.zipIdx (before.length + 1) ++ (.closeParen, before.length + group.length + 1) ::
          behind.zipIdx (before.length + group.length + 2)) := by
  simp [List.zipIdx_append, List.zipIdx_cons, Nat.add_assoc, Nat.add_comm 1]

/-- The places of tokens are those from a start on. -/
theorem place_of_mem_items {tokens : List Token} {start : Nat} {token : Token × Nat}
    (listed : token ∈ items (tokens.zipIdx start)) :
    start ≤ token.2 ∧ token.2 < start + tokens.length := by
  have member := (List.mem_filter.mp listed).1
  have below := List.snd_lt_of_mem_zipIdx member
  exact ⟨List.le_snd_of_mem_zipIdx member, by omega⟩

theorem mem_origins {step : Step × Nat} {steps : List (Step × Nat)} (listed : step ∈ steps) :
    (step.1.token, step.2) ∈ origins steps := List.mem_map_of_mem listed

/-- What comes out can be cut in two, so that no token behind a group is in the first portion, and
no token of the group in the second. -/
theorem Moves.exists_cut {before group behind : List Token} {out : List (Step × Nat)}
    {operators : List (Operator × Nat)}
    (moves : Moves [] (before ++ .openParen :: (group ++ .closeParen :: behind)).zipIdx out
      (waits operators))
    (balanced : isBalanced 0 group = true) :
    ∃ front back, out ++ applied operators = front ++ back ∧
      (∀ step ∈ front, step.2 < before.length + group.length + 1) ∧
        ∀ step ∈ back, step.2 < before.length ∨ before.length + group.length + 1 < step.2 := by
  rw [zipIdx_group] at moves
  obtain ⟨first, middle, block, last, rfl, earlier, own, later⟩ :=
    moves.exists_block (by rwa [List.zipIdx_map_fst])
  refine ⟨first ++ block, last ++ applied operators, by simp, ?_, ?_⟩
  · intro step listed
    rcases List.mem_append.mp listed with inFirst | inBlock
    · have origin := earlier.perm.mem_iff.mp (List.mem_append_left _ (mem_origins inFirst))
      have place := (place_of_mem_items origin).2
      simp only at place
      omega
    · have place := (place_of_mem_items (own.mem_iff.mp (mem_origins inBlock))).2
      simp only at place
      omega
  · -- What comes out last was read behind the group, or has waited since before it was opened.
    intro step listed
    have origin : (step.1.token, step.2) ∈ origins last ++ pending (waits operators) := by
      rw [pending_waits, ← origins_append]
      exact mem_origins listed
    rcases List.mem_append.mp (later.perm.mem_iff.mp origin) with waited | behind
    · have origin := earlier.perm.mem_iff.mp (List.mem_append_right _ waited)
      have place := (place_of_mem_items origin).2
      exact .inl (by simpa using place)
    · exact .inr (place_of_mem_items behind).1

/-- Moves from nothing to operators that come out last put tokens into postfix order. -/
theorem Moves.rearranges {tokens : List Token} {out : List (Step × Nat)}
    {operators : List (Operator × Nat)} (moves : Moves [] tokens.zipIdx out (waits operators)) :
    Rearranges tokens (out ++ applied operators) := by
  have perm : (origins (out ++ applied operators)).Perm (items tokens.zipIdx) := by
    have keeps := moves.perm
    rwa [pending_waits, ← origins_append] at keeps
  refine ⟨perm, ?_, ?_, ?_⟩
  · intro token listed
    simpa using (List.mem_filter.mp (perm.mem_iff.mp listed)).2
  · rw [origins_append, terms_append, terms_origins_applied, List.append_nil, moves.terms_eq]
  · rintro _ _ ⟨before, group, behind, rfl, balanced, rfl, rfl⟩ inner isInner later isLater opens
      closes follows
    obtain ⟨front, back, split, early, late⟩ := moves.exists_cut balanced
    rw [split] at isInner isLater ⊢
    have inFront : inner ∈ front := by
      rcases List.mem_append.mp isInner with inFront | inBack
      · exact inFront
      · have place := late inner inBack
        omega
    have inBack : later ∈ back := by
      rcases List.mem_append.mp isLater with inFront | inBack
      · have place := early later inFront
        omega
      · exact inBack
    exact (List.singleton_sublist.mpr inFront).append (List.singleton_sublist.mpr inBack)

/-! ## The postfix order of an expression -/

/-- A postfix order of tokens rearranges them. -/
theorem exists_rearranges {tokens : List Token} {steps : List Step}
    (arranges : arrange? [] tokens = some steps) :
    ∃ placed, steps = placed.map Prod.fst ∧ Rearranges tokens placed := by
  have marked : arrange? (([] : List (Waiting × Nat)).map Prod.fst)
      (tokens.zipIdx.map Prod.fst) = some steps := by
    rwa [List.zipIdx_map_fst]
  obtain ⟨out, operators, moves, rfl⟩ := exists_moves_of_arrange? marked
  exact ⟨out ++ applied operators, rfl, moves.rearranges⟩

/-- Every step in postfix order was a token. -/
theorem token_mem_of_arrange? {tokens : List Token} {steps : List Step}
    (arranges : arrange? [] tokens = some steps) {step : Step} (listed : step ∈ steps) :
    step.token ∈ tokens := by
  obtain ⟨placed, rfl, rearranges⟩ := exists_rearranges arranges
  obtain ⟨first, member, rfl⟩ := List.mem_map.mp listed
  have origin := rearranges.perm.mem_iff.mp (mem_origins member)
  exact List.fst_mem_of_mem_zipIdx (List.mem_filter.mp origin).1

/-- **Putting tokens into postfix order loses and invents nothing.**  It fails exactly if the
parentheses are not balanced.  Else the steps are the tokens in other places, in which terms keep
their order and groups come out before what stands behind them; and running the steps never finds a
parenthesis. -/
theorem toPostfix_rearranges (tokens : List Token) :
    (toPostfix tokens = .error .unbalancedParens ↔ IsUnbalanced tokens) ∧
      (IsUnbalanced tokens ∨ ∃ placed, toPostfix tokens = .ok (placed.map Prod.fst) ∧
        Rearranges tokens placed ∧
          ∀ (σ : Type) (lookup : Lookup σ) (state : σ) stack,
            (∀ name state, (lookup name state).1 ≠ .error .unbalancedParens) →
              (runSteps lookup stack (placed.map Prod.fst) state).outcome ≠
                .error (.fault .unbalancedParens)) := by
  have arranges := isSome_arrange? [] tokens
  rw [isUnbalanced_iff, toPostfix]
  cases arranged : arrange? [] tokens with
  | none =>
      rw [arranged] at arranges
      exact ⟨iff_of_true rfl arranges.symm, .inl arranges.symm⟩
  | some steps =>
      rw [arranged] at arranges
      have balanced : isBalanced 0 tokens = true := arranges.symm
      refine ⟨iff_of_false (by simp) (by simp [balanced]), .inr ?_⟩
      obtain ⟨placed, rfl, rearranges⟩ := exists_rearranges arranged
      refine ⟨placed, rfl, rearranges, ?_⟩
      intro σ lookup state stack lookups fails
      -- No operator complains of parentheses.
      rcases runSteps_failsOnly _ _ _ _ _ fails with
        ⟨operator, _, stops⟩ | ⟨name, later, cause, search, same⟩
      · cases stops
      · cases same
        exact lookups name later search

end SqlTemplate.Expr
