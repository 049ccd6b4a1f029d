import SqlTemplate.Proofs.Expr.Tree

/-!
# Postfix order of trees

The tokens that write a tree are put into the postfix order of that tree (`Tree.arrange?_derives`).

The reason is what reading the tokens of a part does to the operators that wait.  When a part is
read at a place of a level, the operator on top binds less tightly than the level, so nothing that
waits is released on the way.  Behind the part some of its own operators wait on top, none of which
binds less tightly than the level, and what has come out together with them is the postfix order of
the part (`Tree.Reads`).  So an operator of the level releases exactly those.
-/

namespace SqlTemplate.Expr

set_option autoImplicit false

/-! ## Operators that wait -/

/-- Steps that come out after others. -/
theorem map_append_map (first second : List Step) (rest : Option (List Step)) :
    (rest.map (second ++ ·)).map (first ++ ·) = rest.map (first ++ second ++ ·) := by
  rw [Option.map_map]
  congr 1
  funext steps
  exact (List.append_assoc ..).symm

/-- Operators that wait on top of others. -/
def onTop (pending : List Operator) (waiting : List Waiting) : List Waiting :=
  pending.map .operator ++ waiting

/-- Whether the operator on top, if there is one, binds less tightly than a level. -/
def IsBelow (level : Nat) : List Waiting → Prop
  | .operator top :: _ => top.precedence < level
  | _ => True

theorem IsBelow.mono {low high : Nat} {waiting : List Waiting} (below : IsBelow low waiting)
    (ordered : low ≤ high) : IsBelow high waiting := by
  match waiting, below with
  | [], _ => trivial
  | .openParen :: _, _ => trivial
  | .operator top :: _, below => exact Nat.lt_of_lt_of_le below ordered

/-- Nothing is released by an operator that binds more tightly than the one on top. -/
theorem release_isBelow {new : Operator} {waiting : List Waiting}
    (below : IsBelow new.precedence waiting) : release new waiting = ([], waiting) := by
  match waiting, below with
  | [], _ => rfl
  | .openParen :: _, _ => rfl
  | .operator top :: rest, below =>
      have stays : goesBefore top new = false := by
        simp [goesBefore, Nat.not_le_of_lt below]
      rw [release, stays]
      rfl

/-- An operator between two operands releases what binds at least as tightly. -/
theorem release_onTop {operator : BinaryOperator} {pending : List Operator}
    {waiting : List Waiting} (tight : ∀ top ∈ pending, operator.precedence ≤ top.precedence)
    (below : IsBelow operator.precedence waiting) :
    release (.binary operator) (onTop pending waiting) = (pending.map .apply, waiting) := by
  induction pending with
  | nil => exact release_isBelow below
  | cons top pending ih =>
      rw [List.forall_mem_cons] at tight
      have goes : goesBefore top (.binary operator) = true :=
        (Bool.true_and _).trans (decide_eq_true tight.1)
      show release _ (.operator top :: onTop pending waiting) = _
      rw [release, goes, ih tight.2]
      rfl

/-- A complement releases nothing. -/
theorem release_complement (waiting : List Waiting) :
    release .complement waiting = ([], waiting) := by
  match waiting with
  | [] => rfl
  | .openParen :: _ => rfl
  | .operator _ :: _ => rfl

/-- A closing parenthesis releases what waits down to the open one. -/
theorem closeGroup?_onTop (pending : List Operator) (waiting : List Waiting) :
    closeGroup? (onTop pending (.openParen :: waiting)) = some (pending.map .apply, waiting) := by
  induction pending with
  | nil => rfl
  | cons top pending ih =>
      show (closeGroup? (onTop pending (.openParen :: waiting))).map _ = _
      rw [ih]
      rfl

/-- The end releases every operator. -/
theorem drain?_onTop (pending : List Operator) :
    drain? (onTop pending []) = some (pending.map .apply) := by
  induction pending with
  | nil => rfl
  | cons top pending ih =>
      show (drain? (onTop pending [])).map _ = _
      rw [ih]
      rfl

namespace Tree

/-! ## Reading the tokens of a part -/

/-- What reading tokens on top of waiting operators comes to: the steps that come out, and the
operators that wait on top afterwards, give the postfix order of the tree together. -/
structure Reads (level : Nat) (tree : Tree) (waiting : List Waiting) (tokens : List Token)
    (out : List Step) (pending : List Operator) : Prop where
  steps_eq : out ++ pending.map .apply = tree.steps
  tight : ∀ operator ∈ pending, min level 5 ≤ operator.precedence
  reads (more : List Token) : arrange? waiting (tokens ++ more) =
    (arrange? (onTop pending waiting) more).map (out ++ ·)

namespace Reads

variable {level : Nat} {waiting : List Waiting}

theorem term (leaf : Term) : Reads level (term leaf) waiting [.term leaf] [.push leaf] [] where
  steps_eq := rfl
  tight := fun _ listed => nomatch listed
  reads _ := rfl

theorem group {tree : Tree} {tokens : List Token} {out : List Step} {pending : List Operator}
    (inner : Reads 1 tree (.openParen :: waiting) tokens out pending) :
    Reads level tree waiting (.openParen :: tokens ++ [.closeParen]) tree.steps [] where
  steps_eq := List.append_nil _
  tight := fun _ listed => nomatch listed
  reads more := by
    have closes : arrange? (onTop pending (.openParen :: waiting)) (.closeParen :: more) =
        (arrange? waiting more).map (pending.map .apply ++ ·) := by
      rw [arrange?, closeGroup?_onTop]
    show arrange? (.openParen :: waiting) (tokens ++ [.closeParen] ++ more) = _
    rw [List.append_assoc, inner.reads, List.singleton_append, closes, map_append_map,
      inner.steps_eq]
    rfl

theorem complement {operand : Tree} {tokens : List Token} {out : List Step}
    {pending : List Operator}
    (inner : Reads operandLevel operand (.operator .complement :: waiting) tokens out pending) :
    Reads level (complement operand) waiting (.operator .complement :: tokens) out
      (pending ++ [.complement]) where
  steps_eq := by
    rw [List.map_append, ← List.append_assoc, inner.steps_eq]
    rfl
  tight := by
    rw [List.forall_mem_append]
    refine ⟨fun operator listed => ?_, fun operator listed => ?_⟩
    · exact Nat.le_trans (Nat.min_le_right level 5) (inner.tight operator listed)
    · obtain rfl := List.mem_singleton.mp listed
      exact Nat.min_le_right level 5
  reads more := by
    have opens : arrange? waiting (.operator .complement :: (tokens ++ more)) =
        arrange? (.operator .complement :: waiting) (tokens ++ more) := by
      rw [arrange?, release_complement]
      exact Option.map_id'
    have placed : onTop (pending ++ [.complement]) waiting =
        onTop pending (.operator .complement :: waiting) := by
      rw [onTop, List.map_append, List.append_assoc]
      rfl
    rw [List.cons_append, opens, inner.reads, placed]

theorem binary {operator : BinaryOperator} {left right : Tree}
    {leftTokens rightTokens : List Token} {leftOut rightOut : List Step}
    {leftPending rightPending : List Operator} (ordered : level ≤ operator.precedence)
    (below : IsBelow level waiting)
    (leftReads : Reads operator.precedence left waiting leftTokens leftOut leftPending)
    (rightReads : Reads (operator.precedence + 1) right (.operator (.binary operator) :: waiting)
      rightTokens rightOut rightPending) :
    Reads level (binary operator left right) waiting
      (leftTokens ++ .operator (.binary operator) :: rightTokens) (left.steps ++ rightOut)
      (rightPending ++ [.binary operator]) where
  steps_eq := by
    rw [List.map_append, ← List.append_assoc, List.append_assoc left.steps, rightReads.steps_eq]
    rfl
  tight := by
    rw [List.forall_mem_append]
    refine ⟨fun pending listed => ?_, fun pending listed => ?_⟩
    · have tight := rightReads.tight pending listed
      omega
    · obtain rfl := List.mem_singleton.mp listed
      exact Nat.le_trans (Nat.min_le_left level 5) ordered
  reads more := by
    have atMost : operator.precedence ≤ 5 := by cases operator <;> decide
    have tight : ∀ top ∈ leftPending, operator.precedence ≤ top.precedence := fun top listed => by
      have tight := leftReads.tight top listed
      omega
    -- The operator releases what is left of its left operand, and waits on top itself.
    have releases : arrange? (onTop leftPending waiting)
          (.operator (.binary operator) :: (rightTokens ++ more)) =
        (arrange? (.operator (.binary operator) :: waiting) (rightTokens ++ more)).map
          (leftPending.map .apply ++ ·) := by
      rw [arrange?, release_onTop tight (below.mono ordered)]
    have placed : onTop (rightPending ++ [.binary operator]) waiting =
        onTop rightPending (.operator (.binary operator) :: waiting) := by
      rw [onTop, List.map_append, List.append_assoc]
      rfl
    rw [List.append_assoc, leftReads.reads, List.cons_append, releases, map_append_map,
      leftReads.steps_eq, rightReads.reads, map_append_map, placed]

end Reads

/-- The tokens of a tree are read as its postfix order, whatever looser operators wait. -/
theorem Derives.reads {level : Nat} {tree : Tree} {tokens : List Token}
    (derives : Derives level tree tokens) {waiting : List Waiting} (below : IsBelow level waiting) :
    ∃ out pending, Reads level tree waiting tokens out pending := by
  induction derives generalizing waiting with
  | term leaf => exact ⟨_, _, .term leaf⟩
  | group _ ih =>
      obtain ⟨out, pending, inner⟩ := @ih (.openParen :: waiting) trivial
      exact ⟨_, _, inner.group⟩
  | complement _ ih =>
      have tighter : IsBelow operandLevel (.operator .complement :: waiting) :=
        Nat.lt_succ_self 5
      obtain ⟨out, pending, inner⟩ := ih tighter
      exact ⟨_, _, inner.complement⟩
  | @binary _ operator _ _ _ _ ordered _ _ leftIH rightIH =>
      obtain ⟨leftOut, leftPending, leftReads⟩ := leftIH (below.mono ordered)
      have tighter : IsBelow (operator.precedence + 1) (.operator (.binary operator) :: waiting) :=
        Nat.lt_succ_self operator.precedence
      obtain ⟨rightOut, rightPending, rightReads⟩ := rightIH tighter
      exact ⟨_, _, .binary ordered below leftReads rightReads⟩

/-- The tokens that write a tree are put into its postfix order. -/
theorem arrange?_derives {level : Nat} {tree : Tree} {tokens : List Token}
    (derives : Derives level tree tokens) : arrange? [] tokens = some tree.steps := by
  have nothing : IsBelow level [] := trivial
  obtain ⟨out, pending, reads⟩ := derives.reads nothing
  have whole := reads.reads []
  rw [List.append_nil] at whole
  rw [whole, arrange?, drain?_onTop, Option.map_some, reads.steps_eq]

end Tree

end SqlTemplate.Expr
