import SqlTemplate.Proofs.Mapper.Printing

/-!
# Reading what is printed

Reading undoes printing: the document of a printable mapper is read as this mapper, at any location
and however deep references may go (`Mapper.read_print`).

A reader goes through the printed bytes from place to place, and `Leads` says where content leads
it, whatever follows.  A start tag and an end tag lead from a place around an element to one inside
of it and back (`Leads.element`), so the proof follows the structure of what was printed, and the
names that are open never matter.
-/

namespace SqlTemplate

set_option autoImplicit false

open Markup (Event Fields IsTextEnd Tag bytes byte eventsFrom isName writtenTag)
open Outcome

/-! ## Attributes of printed elements -/

section Attributes

variable {name key : String} {fields : Fields} (proper : fields.areProper = true)
  (keyIsName : isName key = true)

include proper keyIsName

theorem attribute?_writtenTag :
    attribute? (writtenTag name fields) key = .ok (fields.value? key) := by
  rw [attribute?, Markup.find_writtenTag proper keyIsName]
  cases fields.value? key with
  | none => rfl
  | some value => rfl

theorem attributeText_writtenTag {value : String} (given : fields.value? key = some value) :
    attributeText (writtenTag name fields) key = .ok value := by
  rw [attributeText, attribute?_writtenTag proper keyIsName, given]
  rfl

theorem attributeName?_writtenTag {value : Option String} (given : fields.value? key = value)
    (notBlank : ∀ text, value = some text → Text.isAllBlank text = false) :
    attributeName? (writtenTag name fields) key = .ok value := by
  have kept : value.filter (fun text => !Text.isAllBlank text) = value := by
    cases value with
    | none => rfl
    | some text =>
        rw [Option.filter_some, notBlank text rfl]
        rfl
  rw [attributeName?, attribute?_writtenTag proper keyIsName, given]
  exact congrArg Except.ok kept

theorem requiredAttribute_writtenTag {value : String} (given : fields.value? key = some value)
    (label : Text.IsLabel value) : requiredAttribute (writtenTag name fields) key = .ok value := by
  have notBlank : ∀ text, some value = some text → Text.isAllBlank text = false := by
    rintro text same
    cases same
    exact label.notBlank
  rw [requiredAttribute, attributeName?_writtenTag proper keyIsName given notBlank]
  exact congrArg Except.ok label.trimmed_eq

end Attributes

theorem text_writtenTag {name : String} (isName : isName name = true) (fields : Fields) :
    (writtenTag name fields).text = name :=
  Markup.decodeLeniently_bytes isName

/-! ## Elements that are read as they are printed -/

theorem Element.isName_tag : ∀ element : Element, isName element.tag = true
  | conditional _ => (by decide : isName "if" = true)
  | whereClause => (by decide : isName "where" = true)
  | setClause => (by decide : isName "set" = true)
  | trim _ => (by decide : isName "trim" = true)
  | foreach _ => (by decide : isName "foreach" = true)

theorem Element.areProper_fields (element : Element) : element.fields.areProper = true := by
  cases element with
  | conditional test => exact Fields.areProper_singleton (by decide) (some test)
  | whereClause => rfl
  | setClause => rfl
  | trim trimming =>
      have keys : Fields.areKeys ["prefix", "prefixOverrides", "suffix", "suffixOverrides"] =
          true := by decide
      exact keys
  | foreach loop =>
      have keys : Fields.areKeys ["collection", "item", "index", "open", "separator", "close"] =
          true := by decide
      exact keys

namespace Reader

/-- The tag of a printed element is read as this element. -/
theorem opened_element (location : String) {element : Element}
    (printable : element.IsPrintable) :
    opened location (writtenTag element.tag element.fields) = .ok (.element element) := by
  have text := text_writtenTag element.isName_tag element.fields
  have proper := element.areProper_fields
  have given {name key value : String} (keyIsName : isName key = true)
      (present : element.fields.value? key = some value) :
      attributeText (writtenTag name element.fields) key = .ok value :=
    attributeText_writtenTag proper keyIsName present
  rw [opened.eq_def, text]
  cases element with
  | conditional test =>
      have trimmed : Text.trimmed test = test := printable
      simp only [Element.tag]
      rw [given (by decide) rfl]
      exact congrArg (fun test => Except.ok (Opened.element (Element.conditional test))) trimmed
  | whereClause => rfl
  | setClause => rfl
  | trim trimming =>
      simp only [Element.tag]
      rw [given (by decide) rfl, given (by decide) rfl, given (by decide) rfl,
        given (by decide) rfl]
      have opening := Clause.overrides_intercalate printable.opening
      have ending := Clause.overrides_intercalate printable.ending
      exact congrArg Except.ok (by rw [opening, ending])
  | foreach loop =>
      have item : attributeName? (writtenTag "foreach" (Element.foreach loop).fields) "item" =
          .ok loop.item := attributeName?_writtenTag proper (by decide) rfl printable.item
      have index : attributeName? (writtenTag "foreach" (Element.foreach loop).fields) "index" =
          .ok loop.index := attributeName?_writtenTag proper (by decide) rfl printable.index
      simp only [Element.tag]
      rw [requiredAttribute_writtenTag proper (by decide) rfl printable.collection, item, index,
        given (by decide) rfl, given (by decide) rfl, given (by decide) rfl]
      rfl

/-! ## Content that leads from place to place -/

/-- Content that leads a reader from one place to another.  Content that may end with text needs a
tag or the end of the document behind it. -/
def Leads (location : String) (needsEnd : Bool) (content : List UInt8) (place next : Place) :
    Prop :=
  ∀ opened rest, (needsEnd = true → IsTextEnd rest) →
    run location place (eventsFrom opened (content ++ rest)) =
      run location next (eventsFrom opened rest)

/-- An event that leads to another place. -/
theorem run_cons {location : String} {place next : Place} {event : Event}
    (steps : step location place event = .ok (.next next)) (events : List Event) :
    run location place (event :: events) = run location next events := by
  rw [run, steps]

namespace Leads

variable {location : String} {needsEnd : Bool} {place next third : Place}
  {content behind : List UInt8}

theorem nil : Leads location needsEnd [] place place := fun _ _ _ => rfl

theorem weaken (leads : Leads location false content place next) :
    Leads location needsEnd content place next :=
  fun opened rest _ => leads opened rest fun never => by cases never

/-- Content behind content that ends with a tag. -/
theorem before (first : Leads location false content place next)
    (second : Leads location needsEnd behind next third) :
    Leads location needsEnd (content ++ behind) place third := by
  intro opened rest ends
  rw [List.append_assoc, first opened (behind ++ rest) fun never => by cases never]
  exact second opened rest ends

/-- Content behind content that may end with text. -/
theorem append (first : Leads location needsEnd content place next)
    (second : Leads location true behind next third)
    (separate : needsEnd = true → IsTextEnd behind) :
    Leads location true (content ++ behind) place third := by
  intro opened rest ends
  have restEnds := ends rfl
  rw [List.append_assoc, first opened (behind ++ rest)
    fun needs => (separate needs).append restEnds]
  exact second opened rest ends

/-- Entries of which each leads on from the entries before it. -/
theorem flatMap {Entry : Type} {entries : List Entry} {print : Entry → List UInt8}
    (place : List Entry → Place)
    (each : ∀ before entry behind, entries = before ++ entry :: behind →
      Leads location false (print entry) (place before) (place (before ++ [entry]))) :
    Leads location false (entries.flatMap print) (place []) (place entries) := by
  suffices onward : ∀ behind before, entries = before ++ behind →
      Leads location false (behind.flatMap print) (place before) (place entries) from
    onward entries [] rfl
  intro behind
  induction behind with
  | nil =>
      intro before whole
      rw [whole, List.append_nil]
      exact .nil
  | cons entry behind ih =>
      intro before whole
      have rest := ih (before ++ [entry]) (by rw [whole, List.append_assoc]; rfl)
      exact (each before entry behind whole).before rest

/-- An element: its start tag leads inside, its content on, and its end tag out again. -/
theorem element {name : String} (isName : isName name = true) {fields : Fields}
    (proper : fields.areProper = true) {first second : Place}
    (starts : step location place (.start (writtenTag name fields)) = .ok (.next first))
    (inside : Leads location true content first second)
    (stops : step location second .stop = .ok (.next next)) :
    Leads location false (Markup.element name fields content) place next := by
  intro opened rest _
  have whole : Markup.element name fields content ++ rest =
      Markup.startTag name fields ++ (content ++ (Markup.endTag name ++ rest)) := by
    simp only [Markup.element, List.append_assoc]
  rw [whole, Markup.eventsFrom_startTag isName proper, run_cons starts,
    inside (bytes name :: opened) _ fun _ => Markup.isTextEnd_endTag name rest,
    Markup.eventsFrom_endTag isName, run_cons stops]

end Leads

/-! ## Nodes -/

variable {location : String} {draft : Draft} {target : Target}

/-- A printed element around content that leads from no nodes to its nodes. -/
theorem leads_element (element : Element) (printable : element.IsPrintable) {frames : List Frame}
    {before body : List Node} {inner : List UInt8}
    (inside : ∀ frames, Leads location true inner (.content draft target frames [])
      (.content draft target frames body)) :
    Leads location false (element.print inner) (.content draft target frames before)
      (.content draft target frames (before ++ [element.node body])) := by
  refine .element element.isName_tag element.areProper_fields ?_
    (inside (.element element before :: frames)) rfl
  rw [step, contentStep, openNode, opened_element location printable]
  rfl

/-- The text of a text node leads to the node. -/
theorem leads_text {text : TextNode} (uniform : text.IsUniform) (frames : List Frame)
    (before : List Node) :
    Leads location true (Markup.escaped false text.raw) (.content draft target frames before)
      (.content draft target frames (before ++ [.text text])) := by
  obtain ⟨source, notEmpty, same, made⟩ := uniform
  have raw : text.raw = source := by
    rw [TextNode.eq_of_ofRaw made]
    exact same
  have trimmed : Text.trimmed source = source := by
    rw [← same, Text.trimmed_uniform]
  have notBlank := Text.IsLabel.notBlank ⟨notEmpty, trimmed⟩
  intro opened rest ends
  have chars : Text.trim source.toList = source.toList := by
    rw [← String.toList_ofList (l := Text.trim source.toList)]
    exact congrArg String.toList trimmed
  rw [raw, Markup.eventsFrom_escaped notEmpty chars opened (ends rfl)]
  refine run_cons ?_ _
  rw [step, contentStep, flowingNodes, Markup.readText?_escaped]
  simp only [textNodes, notBlank, made]
  rfl

/-- A printed reference leads to the reference; its element holds nothing. -/
theorem leads_reference {name : String} (label : Text.IsLabel name) (frames : List Frame)
    (before : List Node) :
    Leads location false (Node.reference name).print (.content draft target frames before)
      (.content draft target frames (before ++ [.reference name])) := by
  have proper : Fields.areProper [("refid", some name)] = true :=
    Fields.areProper_singleton (by decide) (some name)
  have read : requiredAttribute (writtenTag "include" [("refid", some name)]) "refid" =
      .ok name := requiredAttribute_writtenTag proper (by decide) rfl label
  have starts : step location (.content draft target frames before)
      (.start (writtenTag "include" [("refid", some name)])) =
        .ok (.next (.skipped 0 (.content draft target frames (before ++ [.reference name])))) := by
    rw [step, contentStep, openNode, opened.eq_def, text_writtenTag (by decide)]
    simp only [read]
    rfl
  exact .element (by decide) proper starts .nil rfl

/-- A printed branch with a test leads to the branch. -/
theorem leads_when {test : String} (label : Text.IsLabel test) (frames : List Frame)
    (choice : OpenChoice) {body : List Node} {inner : List UInt8}
    (inside : ∀ frames, Leads location true inner (.content draft target frames [])
      (.content draft target frames body)) :
    Leads location false (Markup.element "when" [("test", some test)] inner)
      (.choice draft target frames choice)
      (.choice draft target frames
        { choice with branches := choice.branches ++ [(test, body)] }) := by
  have proper : Fields.areProper [("test", some test)] = true :=
    Fields.areProper_singleton (by decide) (some test)
  have read : requiredAttribute (writtenTag "when" [("test", some test)]) "test" = .ok test :=
    requiredAttribute_writtenTag proper (by decide) rfl label
  refine .element (by decide) proper ?_ (inside (.branch test choice :: frames)) rfl
  rw [step, choiceStep, openBranch.eq_def, text_writtenTag (by decide)]
  simp only [read]
  rfl

/-- The printed part for the case that no test holds leads to it, if it is the first. -/
theorem leads_otherwise {frames : List Frame} {choice : OpenChoice}
    (first : choice.otherwise = none) {body : List Node} {inner : List UInt8}
    (inside : ∀ frames, Leads location true inner (.content draft target frames [])
      (.content draft target frames body)) :
    Leads location false (Markup.element "otherwise" [] inner)
      (.choice draft target frames choice)
      (.choice draft target frames { choice with otherwise := some body }) := by
  refine .element (by decide) rfl ?_ (inside (.otherwise choice :: frames)) rfl
  rw [step, choiceStep, openBranch.eq_def, text_writtenTag (by decide)]
  simp only [first]
  rfl

/-- A printed node that is no text begins with a tag. -/
theorem isTextEnd_print {node : Node} (printable : node.Everywhere Node.IsPrintable)
    (noText : node.text? = none) (rest : List UInt8) : IsTextEnd (node.print ++ rest) := by
  cases node with
  | text content => cases noText
  | sequence body => exact False.elim printable.1
  | conditional | foreach | trim | whereClause | setClause | choice | reference =>
      exact Markup.isTextEnd_element _ _ _ rest

/-- What is printed behind a text begins with a tag, or there is nothing. -/
theorem isTextEnd_printAll {node : Node} {nodes : List Node}
    (printable : everywhere Node.IsPrintable nodes) (apart : TextsApart (node :: nodes))
    (isText : node.text?.isSome = true) : IsTextEnd (printAll nodes) := by
  cases nodes with
  | nil => exact Markup.isTextEnd_nil
  | cons next nodes =>
      rcases (List.isChain_cons_cons.mp apart).1 with noText | noText
      · rw [noText] at isText
        cases isText
      · exact isTextEnd_print printable.1 noText (printAll nodes)

mutual
/-- The bytes of a printable node lead to the node. -/
theorem leads_print : ∀ (node : Node), node.Everywhere Node.IsPrintable →
    ∀ (frames : List Frame) (before : List Node),
      Leads location node.text?.isSome node.print (.content draft target frames before)
        (.content draft target frames (before ++ [node]))
  | .text content, uniform, frames, before => leads_text uniform frames before
  | .conditional test body, ⟨⟨printable, apart⟩, inside⟩, frames, before =>
      leads_element _ printable fun frames => leads_printAll body inside apart frames []
  | .foreach loop body, ⟨⟨printable, apart⟩, inside⟩, frames, before =>
      leads_element _ printable fun frames => leads_printAll body inside apart frames []
  | .trim trimming body, ⟨⟨printable, apart⟩, inside⟩, frames, before =>
      leads_element _ printable fun frames => leads_printAll body inside apart frames []
  | .whereClause body, ⟨apart, inside⟩, frames, before =>
      leads_element .whereClause trivial fun frames => leads_printAll body inside apart frames []
  | .setClause body, ⟨apart, inside⟩, frames, before =>
      leads_element .setClause trivial fun frames => leads_printAll body inside apart frames []
  | .choice branches otherwise, ⟨⟨branchesProper, apart⟩, inBranches, inOtherwise⟩, frames,
      before => by
      have branchesRead := leads_printBranches branches inBranches branchesProper frames
        ⟨before, [], none⟩
      have otherwiseRead := leads_printOtherwise otherwise inOtherwise apart frames
        ⟨before, branches, none⟩ rfl
      refine .element (by decide) rfl ?_ (branchesRead.before otherwiseRead).weaken rfl
      rw [step, contentStep, openNode, opened.eq_def, text_writtenTag (by decide)]
      rfl
  | .reference name, label, frames, before => leads_reference label frames before
  | .sequence body, ⟨never, _⟩, _, _ => False.elim never

theorem leads_printAll : ∀ (nodes : List Node), everywhere Node.IsPrintable nodes →
    TextsApart nodes → ∀ (frames : List Frame) (before : List Node),
      Leads location true (printAll nodes) (.content draft target frames before)
        (.content draft target frames (before ++ nodes))
  | [], _, _, frames, before => by
      rw [List.append_nil]
      exact .nil
  | node :: nodes, printable, apart, frames, before => by
      have rest := leads_printAll nodes printable.2 apart.of_cons frames (before ++ [node])
      rw [List.append_assoc] at rest
      exact (leads_print node printable.1 frames before).append rest
        (isTextEnd_printAll printable.2 apart)

theorem leads_printBranches : ∀ (branches : List (String × List Node)),
    everywhereInBranches Node.IsPrintable branches →
      (∀ branch ∈ branches, Text.IsLabel branch.1 ∧ TextsApart branch.2) →
        ∀ (frames : List Frame) (choice : OpenChoice),
          Leads location false (printBranches branches) (.choice draft target frames choice)
            (.choice draft target frames { choice with branches := choice.branches ++ branches })
  | [], _, _, frames, choice => by
      rw [List.append_nil]
      exact .nil
  | (test, body) :: branches, printable, proper, frames, choice => by
      have ⟨⟨label, apart⟩, others⟩ := List.forall_mem_cons.mp proper
      have first := leads_when label frames choice fun frames =>
        leads_printAll body printable.1 apart frames []
      have rest := leads_printBranches branches printable.2 others frames
        { choice with branches := choice.branches ++ [(test, body)] }
      rw [List.append_assoc] at rest
      exact first.before rest

theorem leads_printOtherwise : ∀ (otherwise : Option (List Node)),
    everywhereInOtherwise Node.IsPrintable otherwise →
      (∀ body, otherwise = some body → TextsApart body) →
        ∀ (frames : List Frame) (choice : OpenChoice), choice.otherwise = none →
          Leads location false (printOtherwise otherwise) (.choice draft target frames choice)
            (.choice draft target frames { choice with otherwise := otherwise })
  | none, _, _, frames, choice, absent => by
      have same : { choice with otherwise := none } = choice := by rw [← absent]
      rw [same]
      exact .nil
  | some body, printable, apart, frames, choice, absent =>
      leads_otherwise absent fun frames =>
        leads_printAll body printable (apart body rfl) frames []
end

/-! ## Statements and fragments -/

/-- A printed body leads to the draft in which it is stored. -/
theorem leads_body {nodes : List Node} (printable : ArePrintable nodes) {stored : Draft}
    {name : String} (isName : isName name = true) {fields : Fields}
    (proper : fields.areProper = true)
    (starts : target? draft (writtenTag name fields) = .ok (some target))
    (stores : store draft nodes target = .ok stored) :
    Leads location false (Markup.element name fields (printAll nodes)) (.mapper draft)
      (.mapper stored) := by
  have inside : Leads location true (printAll nodes) (.content draft target [] [])
      (.content draft target [] nodes) :=
    leads_printAll nodes printable.inside printable.apart [] []
  refine .element isName proper ?_ inside ?_
  · rw [step, openChild, starts]
    rfl
  · rw [step, contentStep, closeContent, stores]
    rfl

/-- A printed fragment leads to the draft with the fragment. -/
theorem leads_fragment {id : String} {nodes : List Node} (label : Text.IsLabel id)
    (printable : ArePrintable nodes) (fresh : draft.hasFragment id = false) :
    Leads location false (Draft.printFragment (id, nodes)) (.mapper draft)
      (.mapper { draft with fragments := draft.fragments ++ [(id, nodes)] }) := by
  have proper : Fields.areProper [("id", some id)] = true :=
    Fields.areProper_singleton (by decide) (some id)
  have noKind : StatementKind.ofTag? "sql" = none := by decide
  have starts : target? draft (writtenTag "sql" [("id", some id)]) =
      .ok (some (.fragment id)) := by
    rw [target?, text_writtenTag (by decide), noKind, if_pos rfl,
      requiredAttribute_writtenTag proper (by decide) rfl label]
    rfl
  have stores : store draft nodes (.fragment id) =
      .ok { draft with fragments := draft.fragments ++ [(id, nodes)] } := by
    rw [store, fresh]
    rfl
  exact leads_body printable (by decide) proper starts stores

theorem ofTag?_name (kind : StatementKind) : StatementKind.ofTag? kind.name = some kind := by
  cases kind <;> decide

theorem isName_name (kind : StatementKind) : isName kind.name = true := by
  cases kind <;> decide

theorem areProper_fields (head : StatementHead) : head.fields.areProper = true := by
  have keys : Fields.areKeys ["id", "parameterType", "resultType", "resultMap"] = true := by decide
  exact keys

/-- The tag of a printed statement is read as the head of the statement. -/
theorem statementHead_writtenTag {head : StatementHead} (label : Text.IsLabel head.id)
    (fresh : draft.hasStatement head.id = false) :
    statementHead draft head.kind (writtenTag head.kind.name head.fields) = .ok head := by
  have proper := areProper_fields head
  have types (key : String) (keyIsName : isName key = true) :
      attribute? (writtenTag head.kind.name head.fields) key = .ok (head.fields.value? key) :=
    attribute?_writtenTag proper keyIsName
  rw [statementHead, requiredAttribute_writtenTag proper (by decide) rfl label]
  change (if draft.hasStatement head.id = true then _ else _) = _
  rw [fresh, if_neg Bool.false_ne_true, types "parameterType" (by decide),
    types "resultType" (by decide), types "resultMap" (by decide)]
  rfl

/-- The tag of a printed statement opens the statement. -/
theorem target?_writtenTag {head : StatementHead} (label : Text.IsLabel head.id)
    (fresh : draft.hasStatement head.id = false) :
    target? draft (writtenTag head.kind.name head.fields) = .ok (some (.statement head)) := by
  rw [target?, text_writtenTag (isName_name head.kind), ofTag?_name]
  simp only [statementHead_writtenTag label fresh]
  rfl

/-- A printed statement leads to the draft with the statement. -/
theorem leads_statement {head : StatementHead} {nodes : List Node} (label : Text.IsLabel head.id)
    (printable : ArePrintable nodes) (fresh : draft.hasStatement head.id = false) :
    Leads location false (Draft.printStatement (head, nodes)) (.mapper draft)
      (.mapper { draft with statements := draft.statements ++ [(head, nodes)] }) :=
  leads_body printable (isName_name head.kind) (areProper_fields head)
    (target?_writtenTag label fresh) rfl

/-- A name stands in a list of distinct names only once. -/
theorem notMem_of_nodup {names before behind : List String} {name : String}
    (distinct : names.Nodup) (whole : names = before ++ name :: behind) : name ∉ before := by
  rw [whole] at distinct
  exact fun member =>
    (List.nodup_append.mp distinct).2.2 name member name (List.mem_cons_self ..) rfl

/-- The printed fragments of a mapper lead to the draft with them. -/
theorem leads_fragments (printable : draft.IsPrintable) :
    Leads location false (draft.fragments.flatMap Draft.printFragment)
      (.mapper (.empty draft.namespaceName))
      (.mapper ⟨draft.namespaceName, [], draft.fragments⟩) := by
  refine Leads.flatMap (fun before => .mapper ⟨draft.namespaceName, [], before⟩) ?_
  rintro before ⟨id, nodes⟩ behind whole
  have listed : (id, nodes) ∈ draft.fragments := whole ▸ List.mem_append_right _ List.mem_cons_self
  have absent : id ∉ before.map Prod.fst :=
    notMem_of_nodup printable.fragmentsDistinct (by rw [whole, List.map_append]; rfl)
  exact leads_fragment (printable.fragmentLabels id (List.mem_map_of_mem listed))
    (printable.fragments id nodes listed) (Draft.hasFragment_eq_false_iff.mpr absent)

/-- The printed statements of a mapper lead on to the draft with them. -/
theorem leads_statements (printable : draft.IsPrintable) :
    Leads location false (draft.statements.flatMap Draft.printStatement)
      (.mapper ⟨draft.namespaceName, [], draft.fragments⟩) (.mapper draft) := by
  refine Leads.flatMap (fun before => .mapper ⟨draft.namespaceName, before, draft.fragments⟩) ?_
  rintro before ⟨head, nodes⟩ behind whole
  have listed : (head, nodes) ∈ draft.statements :=
    whole ▸ List.mem_append_right _ List.mem_cons_self
  have absent : head.id ∉ before.map fun entry => entry.1.id :=
    notMem_of_nodup printable.distinct (by rw [Draft.ids, whole, List.map_append]; rfl)
  exact leads_statement (printable.labels head.id (List.mem_map_of_mem listed))
    (printable.statements head nodes listed).1 (Draft.hasStatement_eq_false_iff.mpr absent)

/-- The tag of a printed mapper leads into the mapper. -/
theorem run_mapperTag {namespaceName : String} (label : Text.IsLabel namespaceName)
    (behind : List UInt8) :
    run location .prolog (Markup.events
        (Markup.startTag "mapper" [("namespace", some namespaceName)] ++ behind)) =
      run location (.mapper (.empty namespaceName)) (eventsFrom [bytes "mapper"] behind) := by
  have proper : Fields.areProper [("namespace", some namespaceName)] = true :=
    Fields.areProper_singleton (by decide) (some namespaceName)
  have starts : step location .prolog
      (.start (writtenTag "mapper" [("namespace", some namespaceName)])) =
        .ok (.next (.mapper (.empty namespaceName))) := by
    rw [step, openMapper, text_writtenTag (by decide), if_pos rfl,
      requiredAttribute_writtenTag proper (by decide) rfl label]
    rfl
  -- The document begins with a tag, not with a mark of UTF-8.
  have noMark : Markup.withoutMark
      (Markup.startTag "mapper" [("namespace", some namespaceName)] ++ behind) =
        Markup.startTag "mapper" [("namespace", some namespaceName)] ++ behind := rfl
  rw [Markup.events, noMark, Markup.eventsFrom_startTag (by decide) proper, run_cons starts]

/-- The end of a printed mapper is the end of its document. -/
theorem eventsFrom_mapperEnd :
    eventsFrom [bytes "mapper"] (Markup.endTag "mapper") = [.stop] := by
  have mapper : isName "mapper" = true := by decide
  have last := Markup.eventsFrom_endTag mapper [] []
  rwa [List.append_nil, eventsFrom] at last

/-- The document of a printable mapper is read as its draft. -/
theorem run_print (printable : draft.IsPrintable) :
    run location .prolog (Markup.events draft.print) = (.ok draft, []) := by
  have inside : Leads location false
      (draft.fragments.flatMap Draft.printFragment ++ draft.statements.flatMap Draft.printStatement)
      (.mapper (.empty draft.namespaceName)) (.mapper draft) :=
    (leads_fragments printable).before (leads_statements printable)
  rw [Draft.print, Markup.element, run_mapperTag printable.namespaceName,
    inside _ _ (fun never => by cases never), eventsFrom_mapperEnd]
  rfl

end Reader

/-! ## Mappers -/

/-- A draft whose statements hold no references becomes a mapper as it is. -/
theorem Draft.finish_eq_ok {draft : Draft}
    (free : ∀ head nodes, (head, nodes) ∈ draft.statements → everywhere Node.IsNoReference nodes)
    (location : String) (depth : Nat) :
    draft.finish location depth = .ok ⟨draft.namespaceName,
      draft.statements.map fun (head, body) => head.statement draft.namespaceName body,
      draft.fragments⟩ := by
  have each : ∀ entry ∈ draft.statements,
      (do
        let body ← (draft.table location depth).expand entry.2
        .ok (entry.1.statement draft.namespaceName body) : Except ConfigFault Statement) =
          .ok (entry.1.statement draft.namespaceName entry.2) := by
    intro entry listed
    rw [FragmentTable.expand, expandAll_eq_self entry.2 (free entry.1 entry.2 listed)]
    rfl
  rw [finish, mapM_eq_ok_map each]
  rfl

namespace Mapper

/-- **Reading undoes printing.** The document of a printable mapper is read as the mapper with the
same namespace and fragments, and with the statements that its bodies make, in their order; so it is
at any location, and however deep references may go. -/
theorem read_print {draft : Draft} (printable : draft.IsPrintable) (location : String)
    (depth : Nat) :
    read location depth draft.print = .ok ⟨draft.namespaceName,
      draft.statements.map fun (head, body) => head.statement draft.namespaceName body,
      draft.fragments⟩ := by
  have finishes := Draft.finish_eq_ok
    (fun head nodes listed => (printable.statements head nodes listed).2) location depth
  rw [read, next, Reader.run_print printable]
  exact mapError_eq_ok_iff.mpr finishes

/-- A mapper with a fragment that refers to another one, and with a statement in which every kind of
element stands. -/
def ordersDraft : Draft where
  namespaceName := "orders"
  fragments := [("rows", [.text ⟨"SELECT * FROM", "SELECT * FROM", [], false⟩,
    .reference "tables.orders"])]
  statements := [(⟨"close", .update, some "Order \"<&>\"", none, none⟩,
    [.text ⟨"UPDATE orders", "UPDATE orders", [], false⟩,
      .setClause [.conditional "total < 5 and !paid"
        [.text ⟨"note = #{note},", "note = ?,", ["note"], false⟩]],
      .whereClause
        [.choice [("all", [])] (some [.text ⟨"id <> ${id}", "id <> ${id}", [], true⟩]),
          .foreach ⟨"ids", some "id", none, "AND id IN (", ", ", ")"⟩
            [.text ⟨"#{id}", "?", ["id"], false⟩],
          .trim ⟨"AND (", ["AND ", "or"], ")", []⟩ []]])]

theorem ordersDraft_isPrintable : ordersDraft.IsPrintable where
  namespaceName := ⟨by decide, rfl⟩
  labels := List.forall_mem_singleton.mpr ⟨by decide, rfl⟩
  distinct := by decide
  fragmentLabels := List.forall_mem_singleton.mpr ⟨by decide, rfl⟩
  fragmentsDistinct := by decide
  fragments := by
    intro id nodes listed
    cases List.mem_singleton.mp listed
    refine ⟨⟨?select, ?tables, trivial⟩, .cons_cons (.inr rfl) (.singleton _)⟩
    case select => exact ⟨"SELECT * FROM", by decide, rfl, rfl⟩
    case tables => exact ⟨by decide, rfl⟩
  statements := by
    intro head nodes listed
    cases List.mem_singleton.mp listed
    have one (node : Node) : TextsApart [node] := .singleton node
    have apart (first : Node) {second : Node} {nodes : List Node} (noText : second.text? = none)
        (others : TextsApart (second :: nodes)) : TextsApart (first :: second :: nodes) :=
      .cons_cons (.inr noText) others
    refine ⟨⟨⟨?update, ⟨one _, ⟨⟨rfl, one _⟩, ?note, trivial⟩, trivial⟩,
      ⟨apart _ rfl (apart _ rfl (one _)), ?choice, ⟨⟨?loop, one _⟩, ?id, trivial⟩,
        ⟨⟨?trimming, .nil⟩, trivial⟩, trivial⟩, trivial⟩,
      apart _ rfl (apart _ rfl (one _))⟩, ?free⟩
    case update => exact ⟨"UPDATE orders", by decide, rfl, rfl⟩
    case note => exact ⟨"note = #{note},", by decide, rfl, rfl⟩
    case id => exact ⟨"#{id}", by decide, rfl, rfl⟩
    case choice =>
      refine ⟨⟨List.forall_mem_singleton.mpr ⟨⟨by decide, rfl⟩, .nil⟩, ?_⟩, ⟨trivial, trivial⟩,
        ⟨"id <> ${id}", by decide, rfl, rfl⟩, trivial⟩
      rintro body ⟨⟩
      exact one _
    case loop =>
      refine ⟨⟨by decide, rfl⟩, ?_, ?_⟩
      · rintro name ⟨⟩
        decide
      · rintro name ⟨⟩
    case trimming =>
      have first : Clause.IsListable "AND " := ⟨by decide, by decide⟩
      have second : Clause.IsListable "or" := ⟨by decide, by decide⟩
      exact ⟨List.forall_mem_cons.mpr ⟨first, List.forall_mem_singleton.mpr second⟩,
        fun word listed => absurd listed List.not_mem_nil⟩
    case free =>
      simp [everywhere, everywhereInBranches, everywhereInOtherwise, Node.Everywhere,
        Node.IsNoReference]

theorem read_print_orders :
    ordersDraft.IsPrintable ∧
      read memory defaultDepth ordersDraft.print = .ok ⟨"orders",
        ordersDraft.statements.map fun (head, body) => head.statement "orders" body,
        ordersDraft.fragments⟩ :=
  ⟨ordersDraft_isPrintable, read_print ordersDraft_isPrintable memory defaultDepth⟩

end Mapper

end SqlTemplate
