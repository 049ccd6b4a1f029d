import SqlTemplate.Proofs.Mapper.Around
import SqlTemplate.Proofs.Mapper.RoundTrip
import SqlTemplate.Proofs.Markup.Source
import SqlTemplate.Proofs.Statement.FixedText
import SqlTemplate.Proofs.Template.Gap

/-!
# Comments in the gaps of a statement text

A comment in a document is no event, so a text with a comment in it is read as two texts.  Here is
what this changes in the mapper when the comment stands in a gap of a statement text: at most the
template of the statement, not how the statement is listed (`text_splits_at_gap`).

A body of texts is read text by text (`Reader.run_texts`), and behind it the reader goes on alike
whatever the texts were (`Mapper.readOn_related`).  So a comment comes down to the two nodes that it
makes of one, and these have between them what the one node has.
-/

namespace SqlTemplate

set_option autoImplicit false

open Markup (Event IsComment IsTextEnd Writes bytes eventsFrom)
open Outcome

namespace Reader

variable {location : String} {draft : Draft} {head : StatementHead}

/-! ## Bodies made of texts -/

/-- A text in a document that makes the node of a text. -/
def MakesNode (location : String) (content : List UInt8) (text : String) : Prop :=
  flowingNodes location content =
    ((TextNode.flowing text).map fun node => [.text node]).mapError .config

/-- Bytes in which the reader finds texts one behind the other, and nothing else. -/
def FindsTexts (location : String) (body : List UInt8) (texts : List String) : Prop :=
  ∀ opened rest, IsTextEnd rest → ∃ contents : List (List UInt8),
    eventsFrom opened (body ++ rest) = contents.map Event.text ++ eventsFrom opened rest ∧
      List.Forall₂ (MakesNode location) contents texts

/-- A source of a text that is not blank is one text. -/
theorem findsTexts_source (location : String) {source text : String} (writes : Writes source text)
    (notBlank : Text.isAllBlank text = false) :
    FindsTexts location (Text.encode source) [text] := by
  intro opened rest stops
  obtain ⟨content, inner, events, reads, uniform, innerNotBlank⟩ :=
    writes.exists_eventsFrom notBlank opened stops
  refine ⟨[content], events, .cons ?_ .nil⟩
  have same : TextNode.flowing inner = TextNode.flowing text := by
    rw [TextNode.flowing, TextNode.flowing, uniform]
  rw [MakesNode, flowingNodes, reads]
  simp only [textNodes, innerNotBlank, same]
  cases TextNode.flowing text with
  | error fault => rfl
  | ok node => rfl

/-- A comment between two bodies separates the texts of the one from those of the other. -/
theorem FindsTexts.append {front back comment : List UInt8} {texts others : List String}
    (finds : FindsTexts location front texts) (isComment : IsComment comment)
    (findsOthers : FindsTexts location back others) :
    FindsTexts location (front ++ (comment ++ back)) (texts ++ others) := by
  intro opened rest stops
  obtain ⟨behind, later, makesOthers⟩ := findsOthers opened rest stops
  obtain ⟨contents, first, makes⟩ :=
    finds opened (comment ++ (back ++ rest)) (isComment.isTextEnd (back ++ rest))
  refine ⟨contents ++ behind, ?_, List.rel_append makes makesOthers⟩
  rw [Markup.eventsFrom_comment isComment, later] at first
  rw [List.append_assoc, List.append_assoc, first, List.map_append, List.append_assoc]

/-- Texts in a body are read one by one, until one is faulty, and stored at the end of the body. -/
theorem run_texts {contents : List (List UInt8)} {texts : List String}
    (makes : List.Forall₂ (MakesNode location) contents texts) (before : List Node)
    (after : List Event) :
    (run location (.content draft (.statement head) [] before)
        (contents.map Event.text ++ .stop :: after)).1 =
      ((texts.mapM TextNode.flowing).mapError .config).bind fun made =>
        (run location (.mapper { draft with
          statements := draft.statements ++ [(head, before ++ made.map Node.text)] }) after).1 := by
  induction makes generalizing before with
  | nil =>
      rw [List.mapM_nil]
      show _ = (run location (.mapper { draft with
        statements := draft.statements ++ [(head, before ++ [])] }) after).1
      rw [List.append_nil]
      exact congrArg Prod.fst (run_cons rfl after)
  | @cons content text contents texts here _ ih =>
      rw [List.map_cons, List.cons_append, run, step, contentStep, here, List.mapM_cons]
      cases TextNode.flowing text with
      | error fault => rfl
      | ok node =>
          refine (ih (before ++ [.text node])).trans ?_
          cases texts.mapM TextNode.flowing with
          | error fault => rfl
          | ok made =>
              have split : before ++ [Node.text node] ++ made.map Node.text =
                  before ++ (node :: made).map Node.text := by simp
              show (run location (.mapper { draft with statements := draft.statements ++
                [(head, before ++ [Node.text node] ++ made.map Node.text)] }) after).1 = _
              rw [split]
              rfl

/-! ## Documents around a body -/

/-- What stands in a document around the body of a statement: at its front the reader opens the
statement, whatever the body is, and at its back the statement ends in front of other events. -/
def Encloses (location : String) (draft : Draft) (head : StatementHead) (front back : List UInt8)
    (after : List Event) : Prop :=
  IsTextEnd back ∧ ∃ opened, eventsFrom opened back = .stop :: after ∧
    ∀ behind, run location .prolog (Markup.events (front ++ behind)) =
      run location (.content draft (.statement head) [] []) (eventsFrom opened behind)

/-- The document of a mapper with one more statement, up to its body. -/
def printUpTo (draft : Draft) (head : StatementHead) : List UInt8 :=
  Markup.startTag "mapper" [("namespace", some draft.namespaceName)] ++
    (draft.fragments.flatMap Draft.printFragment ++ draft.statements.flatMap Draft.printStatement ++
      Markup.startTag head.kind.name head.fields)

/-- One more statement may follow those of a printable mapper, with anything behind it. -/
theorem encloses_printUpTo (printable : draft.IsPrintable) (label : Text.IsLabel head.id)
    (fresh : draft.hasStatement head.id = false) (behind : List UInt8) :
    Encloses location draft head (printUpTo draft head)
      (Markup.endTag head.kind.name ++ behind) (eventsFrom [bytes "mapper"] behind) := by
  have isName := isName_name head.kind
  have inside : Leads location false
      (draft.fragments.flatMap Draft.printFragment ++ draft.statements.flatMap Draft.printStatement)
      (.mapper (.empty draft.namespaceName)) (.mapper draft) :=
    (leads_fragments printable).before (leads_statements printable)
  have opens : step location (.mapper draft)
      (.start (Markup.writtenTag head.kind.name head.fields)) =
        .ok (.next (.content draft (.statement head) [] [])) := by
    rw [step, openChild, target?_writtenTag label fresh]
    rfl
  refine ⟨Markup.isTextEnd_endTag head.kind.name behind, [bytes head.kind.name, bytes "mapper"],
    Markup.eventsFrom_endTag isName _ behind, fun body => ?_⟩
  rw [printUpTo, List.append_assoc, List.append_assoc, run_mapperTag printable.namespaceName,
    inside _ _ (fun never => by cases never),
    Markup.eventsFrom_startTag isName (areProper_fields head), run_cons opens]

end Reader

namespace Mapper

variable {location : String} {draft : Draft} {head : StatementHead}

/-- What becomes of a document behind a statement made of texts. -/
def readOn (location : String) (depth : Nat) (draft : Draft) (head : StatementHead)
    (after : List Event) (texts : List TextNode) : Except LoadError Mapper :=
  let stored : Draft :=
    { draft with statements := draft.statements ++ [(head, texts.map Node.text)] }
  (Reader.run location (.mapper stored) after).1.bind fun draft =>
    (draft.finish location depth).mapError .config

/-- A document around a body is read as the texts of the body and what is behind them. -/
theorem read_enclosed {front back body : List UInt8} {after : List Event} {texts : List String}
    (depth : Nat) (encloses : Reader.Encloses location draft head front back after)
    (finds : Reader.FindsTexts location body texts) :
    read location depth (front ++ (body ++ back)) =
      ((texts.mapM TextNode.flowing).mapError .config).bind
        (readOn location depth draft head after) := by
  obtain ⟨ends, opened, stops, opens⟩ := encloses
  obtain ⟨contents, events, makes⟩ := finds opened back ends
  have reads : (Reader.run location (.content draft (.statement head) [] [])
      (contents.map Event.text ++ .stop :: after)).1 = _ := Reader.run_texts makes [] after
  rw [read, next, opens, events, stops]
  show ((Reader.run _ _ _).1.bind _ = _)
  rw [reads]
  cases texts.mapM TextNode.flowing with
  | error fault => rfl
  | ok made => rfl

/-- Behind two bodies of a statement a document is read alike. -/
theorem readOn_related (depth : Nat) (after : List Event) (lefts rights : List TextNode) :
    Outcome.Related Eq
      (fun one other => ∃ (around : OpenDraft) (others : List Statement × List Statement),
        one = around.mapper (Statement.ofTexts head around.namespaceName lefts) others ∧
          other = around.mapper (Statement.ofTexts head around.namespaceName rights) others)
      (readOn location depth draft head after lefts)
      (readOn location depth draft head after rights) := by
  have alike : OpenDraft.Alike head (lefts.map Node.text) (rights.map Node.text)
      { draft with statements := draft.statements ++ [(head, lefts.map Node.text)] }
      { draft with statements := draft.statements ++ [(head, rights.map Node.text)] } :=
    ⟨⟨draft.namespaceName, draft.statements, [], draft.fragments⟩, rfl, rfl⟩
  have runs := Reader.run_related location (OpenDraft.alike_isHidden ..) (.mapper alike) after
  refine runs.bind ?_
  rintro _ _ ⟨around, rfl, rfl⟩
  show Outcome.Related Eq _ (Except.mapError _ _) (Except.mapError _ _)
  rw [around.finish_fill, around.finish_fill]
  cases around.others location depth with
  | error fault => exact .fault rfl
  | ok others => exact .result ⟨around, others, rfl, rfl⟩

end Mapper

/-! ## Statements of two texts -/

namespace Statement

/-- A statement that differs from another one at most in its template, so that both have the same
text and the same parameters; and they are bound alike if the text is fixed. -/
structure IsListedAs (isFixed : Prop) (one other : Statement) : Prop where
  listed : one = { other with template := one.template }
  bound : isFixed → ∀ params, one.bind params = other.bind params

variable (head : StatementHead) (namespaceName : String) (front back : TextNode)

/-- A statement of two texts differs from that of both texts with a space between in its template
only. -/
theorem ofTexts_beside : ofTexts head namespaceName [front, back] =
    { ofTexts head namespaceName [front.beside back] with
      template := (ofTexts head namespaceName [front, back]).template } := by
  have sql : (ofTexts head namespaceName [front, back]).sql =
      (ofTexts head namespaceName [front.beside back]).sql := by
    rw [ofTexts_sql, ofTexts_sql]
    simp [TextNode.beside, String.intercalate_cons_cons]
  have parameters : (ofTexts head namespaceName [front, back]).parameters =
      (ofTexts head namespaceName [front.beside back]).parameters := by
    rw [ofTexts_parameters, ofTexts_parameters]
    simp [TextNode.beside]
  exact (Statement.mk.injEq ..).mpr ⟨rfl, rfl, rfl, rfl, rfl, rfl, sql, parameters, rfl⟩

/-- A statement of two texts is listed as that of both texts with a space between, and bound alike
if nothing is spliced into the texts. -/
theorem ofTexts_isListedAs :
    (ofTexts head namespaceName [front, back]).IsListedAs ((front.beside back).isSpliced = false)
      (ofTexts head namespaceName [front.beside back]) where
  listed := ofTexts_beside head namespaceName front back
  bound fixed params := by
    obtain ⟨frontFixed, backFixed⟩ := Bool.or_eq_false_iff.mp fixed
    have noTemplate : (ofTexts head namespaceName [front, back]).template = none := by
      simp [StatementHead.statement, Node.isFixedText, frontFixed, backFixed]
    have sameTemplate : (ofTexts head namespaceName [front.beside back]).template = none := by
      simp [StatementHead.statement, Node.isFixedText, fixed]
    rw [ofTexts_beside, noTemplate, ← sameTemplate]

end Statement

namespace Mapper

variable {location : String} {draft : Draft} {head : StatementHead}

/-- Two readings of a document in which a statement may be written in two ways: both succeed or none
does, and the mappers are the same but for the one statement, which is listed alike. -/
structure AgreeOn (id : String) (isFixed : Prop) (one other : Except LoadError Mapper) : Prop where
  succeeds : Succeeds one ↔ Succeeds other
  listed {first second : Mapper} (readsOne : one = .ok first) (readsOther : other = .ok second) :
    ∃ before statement twin after, first.statements = before ++ statement :: after ∧
      second = { first with statements := before ++ twin :: after } ∧
      statement.id = id ∧ twin.IsListedAs isFixed statement

/-- Readings that fail agree. -/
theorem AgreeOn.of_fails {id : String} {isFixed : Prop} {one other : Except LoadError Mapper}
    (fails : ¬ Succeeds one) (failsOther : ¬ Succeeds other) : AgreeOn id isFixed one other :=
  ⟨iff_of_false fails failsOther, fun reads _ => absurd ⟨_, reads⟩ fails⟩

/-- Behind a text with a space for a gap a document is read as behind two texts. -/
theorem readOn_beside (depth : Nat) (after : List Event) (front back : TextNode) {isFixed : Prop}
    (fixed : isFixed → (front.beside back).isSpliced = false) :
    AgreeOn head.id isFixed (readOn location depth draft head after [front.beside back])
      (readOn location depth draft head after [front, back]) := by
  have related : Outcome.Related Eq _
      (readOn location depth draft head after [front.beside back])
      (readOn location depth draft head after [front, back]) := readOn_related depth after _ _
  generalize readOn location depth draft head after [front.beside back] = one at related ⊢
  generalize readOn location depth draft head after [front, back] = other at related ⊢
  cases related with
  | fault same =>
      exact .of_fails (not_succeeds_iff.mpr ⟨_, rfl⟩) (not_succeeds_iff.mpr ⟨_, rfl⟩)
  | result same =>
      obtain ⟨around, others, rfl, rfl⟩ := same
      refine ⟨iff_of_true ⟨_, rfl⟩ ⟨_, rfl⟩, ?_⟩
      rintro _ _ ⟨⟩ ⟨⟩
      have twins := Statement.ofTexts_isListedAs head around.namespaceName front back
      exact ⟨others.1, _, _, others.2, rfl, rfl, rfl, twins.listed,
        fun holds => twins.bound (fixed holds)⟩

/-- A document is not read if one of the texts of a body makes no node. -/
theorem not_succeeds_of_texts {texts : List String} {text : String} (listed : text ∈ texts)
    (fails : ¬ Succeeds (TextNode.flowing text))
    (next : List TextNode → Except LoadError Mapper) :
    ¬ Succeeds (((texts.mapM TextNode.flowing).mapError .config).bind next) := by
  rintro ⟨mapper, reads⟩
  cases makes : texts.mapM TextNode.flowing with
  | error fault =>
      rw [makes] at reads
      cases reads
  | ok made =>
      obtain ⟨node, _, here⟩ := exists_of_mem_of_forall₂
        (List.Forall₂.flip (forall₂_of_mapM_eq_ok makes)) listed
      exact fails ⟨node, here⟩

end Mapper

/-! ## Documents with a comment in a gap -/

/-- **Splitting a statement text at a gap changes nothing.** A text with a gap makes a node exactly
when both sides of the gap do, and then it is their nodes with a space between.  In a document
around a statement with this text, a comment anywhere in the gap leaves all statements as they are,
except that the one statement may get another template; without spliced text it is bound as before
to all parameters. -/
theorem text_splits_at_gap {left gap right : String} (isGap : Text.IsGap left gap right)
    (leftSome : Text.isAllBlank left = false) (rightSome : Text.isAllBlank right = false) :
    (Succeeds (TextNode.flowing (left ++ gap ++ right)) ↔
      Succeeds (TextNode.flowing left) ∧ Succeeds (TextNode.flowing right)) ∧
    (∀ front back, TextNode.flowing left = .ok front → TextNode.flowing right = .ok back →
      TextNode.flowing (left ++ gap ++ right) = .ok (front.beside back)) ∧
    ∀ (location : String) (depth : Nat) (draft : Draft) (head : StatementHead)
      (front back comment : List UInt8) (after : List Event)
      (leftSource rightSource first second : String),
      Reader.Encloses location draft head front back after → IsComment comment →
      gap = first ++ second → Writes leftSource (left ++ first) →
      Writes rightSource (second ++ right) →
      Mapper.AgreeOn head.id (Text.hasMarker .spliced (left ++ gap ++ right) = false)
        (Mapper.read location depth
          (front ++ (Text.encode (leftSource ++ rightSource) ++ back)))
        (Mapper.read location depth
          (front ++ (Text.encode leftSource ++ (comment ++ Text.encode rightSource) ++ back))) := by
  refine ⟨TextNode.succeeds_flowing_gap isGap leftSome rightSome,
    fun front back => TextNode.flowing_gap isGap leftSome rightSome, ?_⟩
  intro location depth draft head front back comment after leftSource rightSource first second
    encloses isComment split writesLeft writesRight
  -- The blanks on both sides of the comment belong to no node.
  have blank := isGap.blank
  rw [split, Text.isAllBlank_append, Bool.and_eq_true] at blank
  have whole : left ++ first ++ (second ++ right) = left ++ gap ++ right := by
    rw [split, String.append_assoc, String.append_assoc, String.append_assoc]
  have writesWhole := writesLeft.append writesRight
  rw [whole] at writesWhole
  have findsLeft := Reader.findsTexts_source location writesLeft
    (by rw [Text.isAllBlank_append, leftSome, Bool.false_and])
  have findsRight := Reader.findsTexts_source location writesRight
    (by rw [Text.isAllBlank_append, rightSome, Bool.and_false])
  have findsWhole := Reader.findsTexts_source location writesWhole
    (by rw [Text.isAllBlank_append, rightSome, Bool.and_false])
  have makesLeft := TextNode.flowing_append_blank left blank.1
  have makesRight := TextNode.flowing_blank_append blank.2 right
  rw [Mapper.read_enclosed depth encloses findsWhole,
    Mapper.read_enclosed depth encloses (findsLeft.append isComment findsRight)]
  by_cases both : Succeeds (TextNode.flowing left) ∧ Succeeds (TextNode.flowing right)
  · obtain ⟨⟨front, makesFront⟩, back, makesBack⟩ := both
    have makes := TextNode.flowing_gap isGap leftSome rightSome makesFront makesBack
    simp only [List.singleton_append, List.mapM_cons, List.mapM_nil, makes, makesLeft, makesRight,
      makesFront, makesBack]
    exact Mapper.readOn_beside depth after front back
      (TextNode.isSpliced_eq_false_of_flowing makes)
  · refine .of_fails (Mapper.not_succeeds_of_texts (List.mem_singleton_self _) ?_ _) ?_
    · rwa [TextNode.succeeds_flowing_gap isGap leftSome rightSome]
    · rcases not_and_or.mp both with fails | fails
      · rw [← makesLeft] at fails
        exact Mapper.not_succeeds_of_texts
          (List.mem_append_left _ (List.mem_singleton_self (left ++ first))) fails _
      · rw [← makesRight] at fails
        exact Mapper.not_succeeds_of_texts
          (List.mem_append_right _ (List.mem_singleton_self (second ++ right))) fails _

/-- A mapper without content is printable. -/
theorem Draft.empty_isPrintable {namespaceName : String} (label : Text.IsLabel namespaceName) :
    (Draft.empty namespaceName).IsPrintable where
  namespaceName := label
  labels := List.forall_mem_nil _
  distinct := .nil
  fragmentLabels := List.forall_mem_nil _
  fragmentsDistinct := .nil
  fragments _ _ listed := absurd listed List.not_mem_nil
  statements _ _ listed := absurd listed List.not_mem_nil

/-- Two blanks between a marker and a word with a quote are a gap. -/
theorem isGap_quotes : Text.IsGap "'a  b'=#{id}" "\n " "don't" where
  some := by decide
  blank := by decide
  noLiteral := by
    have plain (word : String) {behind : List Char} {portions : List Text.Portion}
        (noQuote : word.toList.all (fun c => !Text.isBlank c && c != '\'' && c != '"') = true)
        (later : Text.LaidOut behind portions) :
        Text.LaidOut (word.toList ++ behind) (word.toList.map .other ++ portions) := by
      refine later.append_plain fun c member => ?_
      have here := List.all_eq_true.mp noQuote c member
      simpa [Text.IsQuote, and_assoc] using here
    have word : Text.LaidOut "don't".toList ("don't".toList.map .other) :=
      plain "don" rfl (.other rfl (fun _ => by decide) (plain "t" rfl .nil))
    have blanks : Text.LaidOut ("\n ".toList ++ "don't".toList) _ :=
      .gap (by decide) rfl (.cons rfl) word
    have laidOut : Text.LaidOut ('\'' :: ("a  b".toList ++ '\'' ::
          ("=#{id}".toList ++ ("\n ".toList ++ "don't".toList))))
        (.literal '\'' "a  b".toList :: "=#{id}".toList.map .other ++
          ([.gap "\n ".toList] ++ "don't".toList.map .other)) :=
      .literal (.inl rfl) (by decide) (plain "=#{id}" rfl blanks)
    have chars : ("'a  b'=#{id}" ++ "\n " ++ "don't").toList = '\'' :: ("a  b".toList ++ '\'' ::
        ("=#{id}".toList ++ ("\n ".toList ++ "don't".toList))) := rfl
    intro portions reads quote inside
    rw [chars] at reads
    rw [reads.unique laidOut]
    have inFront : "'a  b'=#{id}".toList =
        (Text.Portion.literal '\'' "a  b".toList :: "=#{id}".toList.map .other).flatMap
          Text.Portion.chars ++ [] := rfl
    have here : [Text.Portion.gap "\n ".toList].flatMap Text.Portion.chars =
        [] ++ ("\n ".toList ++ []) := rfl
    exact Text.not_extendsOver inFront here (by decide) (by simp)
  noMarker := by
    intro marker division divides inside
    have here : ("\n ".toList.map Text.Piece.char).flatMap (Text.Piece.chars marker) =
        [] ++ ("\n ".toList ++ []) := rfl
    rw [← divides.pieces_eq]
    cases marker with
    | bound =>
        have parts : Text.pieces .bound ("'a  b'=#{id}" ++ "\n " ++ "don't").toList =
            ("'a  b'=".toList.map .char ++ [.marker "id".toList]) ++
              ("\n ".toList.map .char ++ "don't".toList.map .char) := rfl
        have inFront : "'a  b'=#{id}".toList =
            ("'a  b'=".toList.map Text.Piece.char ++ [Text.Piece.marker "id".toList]).flatMap
              (Text.Piece.chars .bound) ++ [] := rfl
        rw [parts]
        exact Text.not_extendsOver inFront here (by decide) (by simp)
    | spliced =>
        have parts : Text.pieces .spliced ("'a  b'=#{id}" ++ "\n " ++ "don't").toList =
            "'a  b'=#{id}".toList.map .char ++
              ("\n ".toList.map .char ++ "don't".toList.map .char) := rfl
        have inFront : "'a  b'=#{id}".toList =
            ("'a  b'=#{id}".toList.map Text.Piece.char).flatMap (Text.Piece.chars .spliced) ++ [] :=
          rfl
        rw [parts]
        exact Text.not_extendsOver inFront here (by decide) (by simp)

/-- The head of a statement that finds a note. -/
def noteHead : StatementHead := ⟨"note", .select, none, none, none⟩

/-- The document of a mapper of notes around a body of its one statement. -/
def noteDocument (body : List UInt8) : List UInt8 :=
  Reader.printUpTo (.empty "notes") noteHead ++
    (body ++ (Markup.endTag "select" ++ Markup.endTag "mapper"))

theorem text_splits_at_gap_quotes :
    Text.IsGap "'a  b'=#{id}" "\n " "don't" ∧
      Succeeds (TextNode.flowing ("'a  b'=#{id}" ++ "\n " ++ "don't")) ∧
      Succeeds (Mapper.read Mapper.memory Mapper.defaultDepth
        (noteDocument (Text.encode ("'a  b'=#{id}\n" ++ " don&apos;t")))) ∧
      Mapper.AgreeOn "note" (Text.hasMarker .spliced ("'a  b'=#{id}" ++ "\n " ++ "don't") = false)
        (Mapper.read Mapper.memory Mapper.defaultDepth
          (noteDocument (Text.encode ("'a  b'=#{id}\n" ++ " don&apos;t"))))
        (Mapper.read Mapper.memory Mapper.defaultDepth
          (noteDocument (Text.encode "'a  b'=#{id}\n" ++
            (bytes "<!-- isn't 'a' -->" ++ Text.encode " don&apos;t")))) := by
  have label : Text.IsLabel "notes" := ⟨by decide, rfl⟩
  have encloses : Reader.Encloses Mapper.memory (.empty "notes") noteHead
      (Reader.printUpTo (.empty "notes") noteHead)
      (Markup.endTag "select" ++ Markup.endTag "mapper") _ :=
    Reader.encloses_printUpTo (Draft.empty_isPrintable label) ⟨by decide, rfl⟩ rfl
      (Markup.endTag "mapper")
  have isComment : IsComment (bytes "<!-- isn't 'a' -->") := by
    have noAngle : Markup.byte '>' ∉ bytes " isn't 'a' " := by decide
    exact Markup.isComment_of_not_mem noAngle
  have writesLeft : Writes "'a  b'=#{id}\n" ("'a  b'=#{id}" ++ "\n") :=
    ⟨by decide, .refl (by decide)⟩
  have writesRight : Writes " don&apos;t" (" " ++ "don't") := by
    have noMark : '&' ∉ "apos".toList := by decide
    have quote : Markup.Resolves ("&apos;".toList ++ "t".toList) "'t".toList :=
      .reference noMark (by decide) rfl (.refl (by decide))
    have front : Markup.Resolves " don".toList " don".toList := .refl (by decide)
    exact ⟨by decide, front.append quote⟩
  obtain ⟨node, _, documents⟩ := text_splits_at_gap isGap_quotes rfl rfl
  have agree := documents Mapper.memory Mapper.defaultDepth _ noteHead _ _ _ _ _ _ "\n" " "
    encloses isComment rfl writesLeft writesRight
  refine ⟨isGap_quotes, node.mpr ⟨⟨_, rfl⟩, _, rfl⟩, ?_, agree⟩
  have finds := Reader.findsTexts_source Mapper.memory (writesLeft.append writesRight) rfl
  rw [Reader.eventsFrom_mapperEnd] at encloses
  rw [noteDocument, Mapper.read_enclosed _ encloses finds]
  exact ⟨_, rfl⟩

end SqlTemplate
