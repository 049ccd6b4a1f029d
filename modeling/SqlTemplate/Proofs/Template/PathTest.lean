import SqlTemplate.Proofs.Expr.Reading
import SqlTemplate.Proofs.Outcome
import SqlTemplate.Proofs.Param.PathGrammar
import SqlTemplate.Proofs.Template.TextNode
import SqlTemplate.Proofs.Text.Division
import SqlTemplate.Template.Render

/-!
# Paths in tests and in markers

A path is read in two ways.  The reader of paths looks for the points and brackets that part its
steps; the reader of tests takes a word as far as its characters go, and an empty pair of
parentheses with it.  What a path is written with is a word to its end, unless a blank or a plus
sign stands inside of its brackets (`Path.isWord_of_writtenAs`).

So a path that is no keyword stands for the same value in both places (`Scope.StandsFor`): a test
looks it up once and goes on with its value, and a marker binds this value.
-/

namespace SqlTemplate

set_option autoImplicit false

open Outcome

/-! ## Paths as words -/

namespace Expr

theorem GoesOn.append {front behind : List Char} (first : GoesOn front) (later : GoesOn behind) :
    GoesOn (front ++ behind) := by
  induction first with
  | nil => exact later
  | part isPart _ ih => exact .part isPart ih
  | call _ ih => exact .call ih

theorem IsWord.append {front behind : List Char} (isWord : IsWord front)
    (later : GoesOn behind) : IsWord (front ++ behind) := by
  obtain ⟨starts, goesOn⟩ := isWord
  exact .mk starts (goesOn.append later)

/-- The characters of a word. -/
theorem GoesOn.isWordPart_of_mem {chars : List Char} (goesOn : GoesOn chars) {c : Char}
    (member : c ∈ chars) : isWordPart c = true ∨ c = '(' ∨ c = ')' := by
  induction goesOn with
  | nil => cases member
  | part isPart _ ih =>
      rcases List.mem_cons.mp member with rfl | later
      · exact .inl isPart
      · exact ih later
  | call _ ih =>
      rcases List.mem_cons.mp member with rfl | later
      · exact .inr (.inl rfl)
      · rcases List.mem_cons.mp later with rfl | later
        · exact .inr (.inr rfl)
        · exact ih later

theorem IsWord.isWordPart_of_mem {chars : List Char} (isWord : IsWord chars) {c : Char}
    (member : c ∈ chars) : isWordPart c = true ∨ c = '(' ∨ c = ')' := by
  obtain ⟨starts, goesOn⟩ := isWord
  have isPart := isWordPart_of_isNamePart (Text.isNamePart_of_isNameStart starts)
  exact (GoesOn.part isPart goesOn).isWordPart_of_mem member

end Expr

namespace Path

open SqlTemplate.Expr

/-- Characters with no blank and no plus sign. -/
def IsTight (chars : List Char) : Prop := (∀ c ∈ chars, Text.isBlank c = false) ∧ '+' ∉ chars

theorem IsTight.append {front behind : List Char} (tight : IsTight (front ++ behind)) :
    IsTight front ∧ IsTight behind := by
  obtain ⟨noBlank, noPlus⟩ := tight
  rw [List.forall_mem_append] at noBlank
  rw [List.mem_append, not_or] at noPlus
  exact ⟨⟨noBlank.1, noPlus.1⟩, noBlank.2, noPlus.2⟩

/-- The characters that write a position are those of words, but for a plus sign. -/
theorem isWordPart_of_positionWrittenAs {position : Position} {chars : List Char}
    (written : position.WrittenAs chars) (tight : IsTight chars) :
    ∀ c ∈ chars, isWordPart c = true := by
  intro c member
  cases written with
  | named named => exact isWordPart_of_isNamePart (Text.isNamePart_of_mem named member)
  | fixed _ optional padding =>
      rcases List.mem_append.mp member with sign | digits
      · rcases optional with rfl | rfl
        · cases sign
        · exact absurd (List.mem_cons_self ..) tight.2
      · rcases List.mem_append.mp digits with zero | digit
        · rw [padding c zero]
          rfl
        · exact Text.of_isDigit (fun c => isWordPart c = true) (by decide)
            (isDigit_of_mem_toString _ digit)

/-- What writes a step goes on as a word. -/
theorem goesOn_of_segmentWrittenAs {segment : Segment} {chars : List Char}
    (written : segment.WrittenAs chars) (tight : IsTight chars) : GoesOn chars := by
  cases written with
  | key named =>
      exact .part rfl (goesOn_of_forall fun c member =>
        isWordPart_of_isNamePart (Text.isNamePart_of_mem named member))
  | @item position before inside behind written frontBlank backBlank =>
      have noBlanks {blanks : List Char} (blank : blanks.all Text.isBlank = true)
          (tight : IsTight blanks) : GoesOn blanks :=
        goesOn_of_forall fun c member => by
          have notBlank := tight.1 c member
          rw [List.all_eq_true.mp blank c member] at notBlank
          cases notBlank
      have ⟨_, tight⟩ : IsTight ['['] ∧ IsTight (before ++ inside ++ behind ++ [']']) :=
        IsTight.append tight
      obtain ⟨⟨⟨frontTight, insideTight⟩, backTight⟩, _⟩ :=
        tight.append.imp_left fun front => front.append.imp_left IsTight.append
      have inside := goesOn_of_forall (isWordPart_of_positionWrittenAs written insideTight)
      exact .part rfl ((((noBlanks frontBlank frontTight).append inside).append
        (noBlanks backBlank backTight)).append (.part rfl .nil))
  | size => exact .part rfl (.part rfl (.part rfl (.part rfl (.part rfl (.call .nil)))))

/-- What writes steps goes on as a word. -/
theorem goesOn_of_stepsWrittenAs {segments : List Segment} {chars : List Char}
    (written : StepsWrittenAs segments chars) (tight : IsTight chars) : GoesOn chars := by
  induction written with
  | nil => exact .nil
  | cons here _ ih =>
      obtain ⟨frontTight, backTight⟩ := tight.append
      exact (goesOn_of_segmentWrittenAs here frontTight).append (ih backTight)

/-- What writes a path is a word. -/
theorem isWord_of_writtenAs {path : Path} {chars : List Char} (written : path.WrittenAs chars)
    (tight : IsTight chars) : IsWord chars := by
  obtain ⟨named, steps⟩ := written
  exact (isWord_of_isName named).append (goesOn_of_stepsWrittenAs steps tight.append.2)

/-- A text that may be a path in a test: a path without blanks and plus signs that is no keyword. -/
structure IsPathWord (text : String) : Prop where
  isPath : ∃ path, ofString? text = .ok path
  noBlank : ∀ c ∈ text.toList, Text.isBlank c = false
  noPlus : '+' ∉ text.toList
  noKeyword : text ∉ ["nil", "null", "true", "false", "and", "or"]

namespace IsPathWord

variable {text : String}

theorem isWord (pathWord : IsPathWord text) : IsWord text.toList := by
  obtain ⟨path, reads⟩ := pathWord.isPath
  have written := ofString?_eq_ok_iff_writtenAs.mp reads
  rw [Text.trim_eq_self pathWord.noBlank] at written
  exact isWord_of_writtenAs written ⟨pathWord.noBlank, pathWord.noPlus⟩

theorem wordToken (pathWord : IsPathWord text) :
    Expr.wordToken (.ofList text.toList) = .term (.word text) := by
  rw [String.ofList_toList]
  exact wordToken_of_not_mem pathWord.noKeyword

end IsPathWord

end Path

/-! ## Tests of paths -/

namespace Expr

open SqlTemplate.Path

section

variable {source : String} {previous : Option Token} {offset : Nat} {behind : List Char}

/-- A path is read as one word. -/
theorem tokensFrom_pathWord (source : String) (previous : Option Token) (offset : Nat)
    {text : String} (pathWord : IsPathWord text) (ends : EndsWord behind) :
    ∃ later, tokensFrom source previous offset (text.toList ++ behind) =
      (tokensFrom source (some (.term (.word text))) later behind).map
        (.term (.word text) :: ·) := by
  have isWord := pathWord.isWord
  have token := pathWord.wordToken
  obtain ⟨first, rest, split, notBlank⟩ := isWord.exists_cons
  rw [split] at isWord token ⊢
  have reads := tokenAt_word isWord ends source previous offset
  rw [token] at reads
  exact ⟨_, tokensFrom_of_tokenAt notBlank reads⟩

end

/-- A path alone is one word. -/
theorem tokenize_pathWord {text : String} (pathWord : IsPathWord text) :
    tokenize text = .ok [.term (.word text)] := by
  obtain ⟨later, reads⟩ := tokensFrom_pathWord text none 0 pathWord ends_nil.endsWord
  rw [List.append_nil, tokensFrom] at reads
  exact reads

/-- The comparisons of two operands for being the same. -/
inductive IsComparison : BinaryOperator → Prop
  | equal : IsComparison .equal
  | notEqual : IsComparison .notEqual

/-- The sign of a comparison is read as it, whatever stands around. -/
theorem tokensFrom_comparison {operator : BinaryOperator} (comparison : IsComparison operator)
    (source : String) (previous : Option Token) (offset : Nat) (behind : List Char) :
    ∃ later, tokensFrom source previous offset (operator.symbol.toList ++ behind) =
      (tokensFrom source (some (.operator (.binary operator))) later behind).map
        (.operator (.binary operator) :: ·) := by
  cases comparison with
  | equal =>
      have reads : tokenAt source previous offset '=' (['='] ++ behind) = .ok (_, ['='].length) :=
        tokenAt_of_signToken? rfl
      exact ⟨_, tokensFrom_of_tokenAt rfl reads⟩
  | notEqual =>
      have reads : tokenAt source previous offset '!' (['='] ++ behind) = .ok (_, ['='].length) :=
        tokenAt_of_signToken? rfl
      exact ⟨_, tokensFrom_of_tokenAt rfl reads⟩

/-- A word ends in front of a comparison, with blanks between or not. -/
theorem endsWord_comparison {operator : BinaryOperator} (comparison : IsComparison operator)
    {blanks : List Char} (blank : blanks.all Text.isBlank = true) (behind : List Char) :
    EndsWord (blanks ++ (operator.symbol.toList ++ behind)) := by
  have blanksEnd : Ends blanks := fun c after equal =>
    List.all_eq_true.mp blank c (equal ▸ List.mem_cons_self ..)
  refine blanksEnd.endsWord.append ?_
  cases comparison with
  | equal => exact .cons rfl
  | notEqual => exact .cons rfl

/-- Two paths with a comparison between them are three tokens. -/
theorem tokenize_comparison {left right : String} (leftWord : IsPathWord left)
    (rightWord : IsPathWord right) {operator : BinaryOperator} (comparison : IsComparison operator)
    {front back : String} (frontBlank : Text.isAllBlank front = true)
    (backBlank : Text.isAllBlank back = true) :
    tokenize (left ++ front ++ operator.symbol ++ back ++ right) =
      .ok [.term (.word left), .operator (.binary operator), .term (.word right)] := by
  generalize whole : left ++ front ++ operator.symbol ++ back ++ right = source
  have chars : source.toList = left.toList ++
      (front.toList ++ (operator.symbol.toList ++ (back.toList ++ (right.toList ++ [])))) := by
    rw [← whole]
    simp
  obtain ⟨first, readsLeft⟩ := tokensFrom_pathWord source none 0 leftWord
    (endsWord_comparison comparison frontBlank _)
  obtain ⟨second, readsSign⟩ := tokensFrom_comparison comparison source _ _ _
  obtain ⟨third, readsRight⟩ := tokensFrom_pathWord source _ _ rightWord ends_nil.endsWord
  rw [tokenize, chars, readsLeft, tokensFrom_blanks frontBlank, readsSign,
    tokensFrom_blanks backBlank, readsRight, tokensFrom]
  rfl

section

variable {σ : Type} {lookup : Lookup σ} {source : String}

/-- A test is evaluated as the tree that its tokens derive. -/
theorem evaluateWith_of_derives {tree : Tree} {tokens : List Token}
    (tokenized : tokenize source = .ok tokens) (derives : tree.Derives 1 tokens) :
    evaluateWith lookup source =
      tree.evaluate lookup >>= fun value => .ofExcept (reported (verdict [value])) := by
  rw [Tree.evaluateWith_of_compile (derives.compile tokenized), Tree.holds_eq]

/-- A word that is looked up is the operand of the value found. -/
theorem evaluate_word {name : String} {value? : Option Value} {state later : σ}
    (found : lookup name state = (.ok value?, later)) :
    (Tree.term (.word name)).evaluate lookup state =
      ⟨[name], .ok (.ofValue? value?), later⟩ := by
  show Evaluated.mk [name] ((reported (lookup name state).1).map Operand.ofValue?)
    (lookup name state).2 = _
  rw [found]
  rfl

/-- A test of one word looks it up and judges its value. -/
theorem evaluateWith_word {name : String} {value? : Option Value} {state later : σ}
    (tokens : tokenize source = .ok [.term (.word name)])
    (found : lookup name state = (.ok value?, later)) :
    evaluateWith lookup source state =
      ⟨[name], reported (verdict [.ofValue? value?]), later⟩ := by
  rw [evaluateWith_of_derives tokens (.term (.word name)),
    Evaluation.bind_of_ok (evaluate_word found)]
  rfl

/-- A test of two words and an operator looks both up and judges what the operator gives. -/
theorem evaluateWith_words {operator : BinaryOperator} {left right : String}
    {leftValue? rightValue? : Option Value} {state middle later : σ}
    (tokens : tokenize source =
      .ok [.term (.word left), .operator (.binary operator), .term (.word right)])
    (foundLeft : lookup left state = (.ok leftValue?, middle))
    (foundRight : lookup right middle = (.ok rightValue?, later))
    (isLow : 1 ≤ operator.precedence) {result : Operand}
    (combines : (Operand.ofValue? leftValue?).combine operator (.ofValue? rightValue?) =
      .ok result) :
    evaluateWith lookup source state =
      ⟨[left, right], reported (verdict [result]), later⟩ := by
  have derives : Tree.Derives 1 _ _ := @Tree.Derives.binary 1 operator _ _ _ _ isLow
    (.term (.word left)) (.term (.word right))
  have evaluated : (Tree.binary operator (.term (.word left)) (.term (.word right))).evaluate
      lookup state = ⟨[left, right], .ok result, later⟩ := by
    rw [Tree.evaluate, Evaluation.bind_of_ok (evaluate_word foundLeft),
      Evaluation.bind_of_ok (evaluate_word foundRight), combines]
    rfl
  rw [evaluateWith_of_derives tokens derives, Evaluation.bind_of_ok evaluated]
  rfl

end

end Expr

/-! ## Markers of paths -/

namespace TextNode

open SqlTemplate.Path

/-- The bound marker of a name. -/
def marker (name : String) : String := "#\x7b" ++ name ++ "\x7d"

/-- The node of the bound marker of a name. -/
def markerNode (name : String) : TextNode := ⟨marker name, "?", [name], false⟩

/-- What the rendering of the marker of a name comes to, by the value of the name. -/
def markerOutcome (name : String) : Option Value → Except RenderError (Option Fragment)
  | some value => .ok (some ⟨"?", [value]⟩)
  | none => .error (.unresolved name (marker name))

theorem toList_marker (name : String) :
    (marker name).toList = Text.Marker.bound.written name.toList := by
  simp [marker, Text.Marker.written, Text.Marker.sign]

/-- The marker of a path makes a node that binds it. -/
theorem flowing_marker {text : String} (pathWord : IsPathWord text) :
    flowing (marker text) = .ok (markerNode text) := by
  have absent (c : Char) (noPart : Expr.isWordPart c = false) (noParen : c ≠ '(' ∧ c ≠ ')') :
      c ∉ text.toList := fun member =>
    (pathWord.isWord.isWordPart_of_mem member).elim (by simp [noPart]) (not_or.mpr noParen)
  have noBlank : ∀ c ∈ (marker text).toList, Text.isBlank c = false := by
    rw [toList_marker]
    simp only [Text.Marker.written, List.forall_mem_cons, List.forall_mem_append]
    exact ⟨rfl, rfl, pathWord.noBlank, rfl, List.forall_mem_nil _⟩
  have parts : Text.pieces .bound (marker text).toList = [.marker text.toList] := by
    have closed := absent '}' (by decide) (by decide)
    have parts : Text.pieces .bound (Text.Marker.bound.written text.toList ++ []) = _ :=
      Text.pieces_written closed
    rwa [List.append_nil, ← toList_marker] at parts
  have named : Text.markedName text.toList = text.toList := by
    have noEnd : ∀ c ∈ text.toList, (c != ',' && c != ':') = true := by
      intro c member
      rw [Bool.and_eq_true, bne_iff_ne, bne_iff_ne]
      exact ⟨ne_of_mem_of_not_mem member (absent ',' (by decide) (by decide)),
        ne_of_mem_of_not_mem member (absent ':' (by decide) (by decide))⟩
    rw [Text.markedName, List.takeWhile_eq_self_iff.mpr noEnd, Text.trim_eq_self pathWord.noBlank]
  have fixed : Text.hasMarker .spliced (marker text) = false := by
    rw [← Bool.not_eq_true, Text.hasMarker_iff_occursIn, toList_marker]
    intro occurs
    have sign := occurs.sign_mem
    simp [Text.Marker.written, Text.Marker.sign, absent '$' (by decide) (by decide)] at sign
  have some : text.toList.isEmpty = false := by
    obtain ⟨first, rest, split, _⟩ := pathWord.isWord.exists_cons
    rw [split]
    rfl
  have names : boundNames [.marker text.toList] = [text.toList] := by
    show [Text.markedName text.toList] = _
    rw [named]
  have extracted : extract (marker text) = .ok ("?", [text]) := by
    rw [extract, parts]
    simp only [names, List.any_cons, List.any_nil, some, List.map_cons, List.map_nil,
      String.ofList_toList]
    rfl
  rw [flowing, Text.uniform_eq_self noBlank, ofRaw, extracted, Except.map, fixed]
  rfl

/-- The node of a marker is rendered as the value of the name. -/
theorem render_markerNode {scope : Scope} {name : String} {value? : Option Value}
    (found : scope.resolve name = .ok value?) :
    (markerNode name).render scope = markerOutcome name value? := by
  cases value? with
  | none =>
      have misses : scope.require (marker name) name = .error (.unresolved name (marker name)) := by
        rw [Scope.require, found]
      have fails : (markerNode name).parameters.mapM (scope.require (markerNode name).raw) =
          .error (.unresolved name (marker name)) := by
        rw [parameters, markerNode, List.mapM_cons, misses]
        rfl
      rw [render, fails]
      rfl
  | some value =>
      have binds : scope.require (marker name) name = .ok value := by
        rw [Scope.require, found]
      have args : (markerNode name).parameters.mapM (scope.require (markerNode name).raw) =
          .ok [value] := mapM_eq_ok_of_forall₂ (.cons binds .nil)
      rw [render, args]
      rfl

end TextNode

namespace Scope

open SqlTemplate.Path SqlTemplate.Expr

/-- A name stands for a value, or for none, wherever it is written: a test of it looks it up once
and judges its value, and the value is what the marker of the name binds. -/
structure StandsFor (scope : Scope) (name : String) (value? : Option Value) : Prop where
  resolves : scope.resolve name = .ok value?
  test : evaluateWith (.stateless scope.lookupWord) name () =
    ⟨[name], reported (verdict [.ofValue? value?]), ()⟩
  marks : TextNode.flowing (TextNode.marker name) = .ok (TextNode.markerNode name)
  binds : (TextNode.markerNode name).render scope = TextNode.markerOutcome name value?

theorem stateless_of_resolve {scope : Scope} {name : String} {value? : Option Value}
    (resolves : scope.resolve name = .ok value?) :
    Lookup.stateless scope.lookupWord name () = (.ok value?, ()) := by
  rw [Lookup.stateless, lookupWord, resolves]
  rfl

theorem exists_standsFor (scope : Scope) {text : String} (pathWord : IsPathWord text) :
    ∃ value?, scope.StandsFor text value? := by
  obtain ⟨path, reads⟩ := pathWord.isPath
  have resolves : scope.resolve text = .ok (scope.value? path) := by
    rw [resolve, reads]
    rfl
  exact ⟨_, resolves, evaluateWith_word (tokenize_pathWord pathWord)
    (stateless_of_resolve resolves), TextNode.flowing_marker pathWord,
    TextNode.render_markerNode resolves⟩

/-- **Tests and markers read paths alike.** A path without blanks and plus signs that is no keyword
is one word of a test.  It stands for the same value in a test and in a marker, and so do two such
paths in a comparison: each is looked up once, and the operands are those of their values. -/
theorem test_readsLike_marker (scope : Scope) {left right : String}
    (leftWord : IsPathWord left) (rightWord : IsPathWord right) :
    tokenize left = .ok [.term (.word left)] ∧
      ∃ leftValue? rightValue?,
        scope.StandsFor left leftValue? ∧ scope.StandsFor right rightValue? ∧
          ∀ front back : String, Text.isAllBlank front = true → Text.isAllBlank back = true →
            evaluateWith (.stateless scope.lookupWord)
                (left ++ front ++ "==" ++ back ++ right) () =
              ⟨[left, right],
                .ok ((Operand.ofValue? leftValue?).same (.ofValue? rightValue?)), ()⟩ ∧
            evaluateWith (.stateless scope.lookupWord)
                (left ++ front ++ "!=" ++ back ++ right) () =
              ⟨[left, right],
                .ok !(Operand.ofValue? leftValue?).same (.ofValue? rightValue?), ()⟩ := by
  obtain ⟨leftValue?, leftStands⟩ := scope.exists_standsFor leftWord
  obtain ⟨rightValue?, rightStands⟩ := scope.exists_standsFor rightWord
  have foundLeft := stateless_of_resolve leftStands.resolves
  have foundRight := stateless_of_resolve rightStands.resolves
  refine ⟨tokenize_pathWord leftWord, _, _, leftStands, rightStands,
    fun front back frontBlank backBlank => ⟨?_, ?_⟩⟩
  · exact evaluateWith_words (tokenize_comparison leftWord rightWord .equal frontBlank backBlank)
      foundLeft foundRight (by decide) rfl
  · exact evaluateWith_words (tokenize_comparison leftWord rightWord .notEqual frontBlank backBlank)
      foundLeft foundRight (by decide) rfl

/-- The size of a part of an order. -/
def partSize : String := "größe.teile[0][k].size()"

/-- A path that begins as a keyword does. -/
def partLimit : String := "nullable.or"

/-- An order with nested parts, and the position of one. -/
def partParams : Params :=
  .named [("größe", .object [("teile", .array [.array [.text "a", .array [.null, .null]]])]),
    ("k", .ofNat 1), ("nullable", .object [("or", .ofNat 2)])]

theorem partSize_isPathWord : IsPathWord partSize where
  isPath := ⟨⟨"größe", [.key "teile", .item (.fixed 0), .item (.named "k"), .size]⟩,
    ofString?_eq_ok_iff.mpr (by decide +kernel)⟩
  noBlank := by
    have noBlank : partSize.toList.all (fun c => !Text.isBlank c) = true := by decide +kernel
    exact fun c member => by simpa using List.all_eq_true.mp noBlank c member
  noPlus := by decide +kernel
  noKeyword := by decide +kernel

theorem partLimit_isPathWord : IsPathWord partLimit where
  isPath := ⟨⟨"nullable", [.key "or"]⟩, ofString?_eq_ok_iff.mpr (by decide +kernel)⟩
  noBlank := by
    have noBlank : partLimit.toList.all (fun c => !Text.isBlank c) = true := by decide +kernel
    exact fun c member => by simpa using List.all_eq_true.mp noBlank c member
  noPlus := by decide +kernel
  noKeyword := by decide +kernel

theorem test_readsLike_marker_parts :
    IsPathWord partSize ∧ IsPathWord partLimit ∧
      tokenize partSize = .ok [.term (.word partSize)] ∧
        ∃ size? limit?, (root partParams).StandsFor partSize size? ∧
          (root partParams).StandsFor partLimit limit? ∧
            evaluateWith (.stateless (root partParams).lookupWord)
                (partSize ++ "" ++ "!=" ++ " " ++ partLimit) () =
              ⟨[partSize, partLimit],
                .ok !(Operand.ofValue? size?).same (.ofValue? limit?), ()⟩ := by
  obtain ⟨word, size?, limit?, size, limit, compares⟩ :=
    test_readsLike_marker (root partParams) partSize_isPathWord partLimit_isPathWord
  exact ⟨partSize_isPathWord, partLimit_isPathWord, word, size?, limit?, size, limit,
    (compares "" " " (by decide) (by decide)).2⟩

end Scope

end SqlTemplate
