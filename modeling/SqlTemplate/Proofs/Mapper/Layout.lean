import SqlTemplate.Proofs.Mapper.FragmentOrder
import SqlTemplate.Proofs.Mapper.Outline
import SqlTemplate.Proofs.Mapper.RoundTrip

/-!
# The layout of a mapper

A document is laid out in another way (`Relaid`) if text, comments or skipped elements are put
between the children of its mapper, and if fragments are moved over other children.  A skipped
element may hold any balanced content, also elements that would be statements or fragments
elsewhere, or would be skipped themselves.

None of this matters: a document in another layout is read as a mapper with the same namespace, the
same statements in the same order, and the same fragments (`Mapper.read_relaid`).  What is put
between the children leaves the reader where it is (`Reader.run_filler`), and a fragment may be read
before or behind whatever stands between its old place and its new one (`Mapper.read_swap`).  The
places between the children are all those of which a layout speaks: every document that is read as a
mapper has balanced content in its mapper (`Mapper.holdsMapper_of_read`).
-/

namespace SqlTemplate

set_option autoImplicit false

open Markup (Balanced Fields IsComment IsElement Tag byte element endTag eventsFrom isName startTag
  writtenTag)
open Outcome

/-! ## Layouts -/

/-- What may be put between the children of a mapper: text, a comment, or a skipped element. -/
inductive IsFiller : List UInt8 → Prop
  | text {content : List UInt8} (noTag : byte '<' ∉ content) : IsFiller content
  | comment {comment : List UInt8} (isComment : IsComment comment) : IsFiller comment
  | element {tag : Tag} {element : List UInt8} (isSkipped : tag.text ∈ Reader.skippedTags)
      (isElement : IsElement tag element) : IsFiller element

/-- Whether one document is the other with another layout: something is put between the children of
the mapper, or a fragment is moved over what stands behind it or before it, any number of times. -/
inductive Relaid : List UInt8 → List UInt8 → Prop
  | insert {front filler back : List UInt8} (inMapper : InMapper front)
      (isFiller : IsFiller filler) : Relaid (front ++ back) (front ++ (filler ++ back))
  | later {front fragment between back : List UInt8} {tag : Tag} (inMapper : InMapper front)
      (isFragment : tag.text = "sql") (isElement : IsElement tag fragment)
      (balanced : Balanced between) :
      Relaid (front ++ (fragment ++ (between ++ back))) (front ++ (between ++ (fragment ++ back)))
  | earlier {front fragment between back : List UInt8} {tag : Tag} (inMapper : InMapper front)
      (isFragment : tag.text = "sql") (isElement : IsElement tag fragment)
      (balanced : Balanced between) :
      Relaid (front ++ (between ++ (fragment ++ back))) (front ++ (fragment ++ (between ++ back)))
  | trans {first second third : List UInt8} :
      Relaid first second → Relaid second third → Relaid first third

/-! ## Reading another layout -/

namespace Reader

variable {location : String}

/-- What is put between the children of a mapper does not matter. -/
theorem run_filler {filler : List UInt8} (isFiller : IsFiller filler)
    (opened : List (List UInt8)) (rest : List UInt8) (draft : Draft) :
    (run location (.mapper draft) (eventsFrom opened (filler ++ rest))).1 =
      (run location (.mapper draft) (eventsFrom opened rest)).1 := by
  cases isFiller with
  | text noTag => rw [run_text (fun _ => rfl) noTag]
  | comment isComment => rw [Markup.eventsFrom_comment isComment]
  | @element tag element isSkipped isElement =>
      have skipped : ∀ name ∈ skippedTags, StatementKind.ofTag? name = none ∧ name ≠ "sql" := by
        decide
      obtain ⟨noStatement, noFragment⟩ := skipped _ isSkipped
      have target : target? draft tag = .ok none := by
        rw [target?, noStatement]
        simp only [if_neg noFragment, if_pos isSkipped]
      obtain ⟨body, child⟩ := exists_child isElement location
      rw [child, Child.read, target]
      rfl

end Reader

namespace Mapper

/-- Drafts that are rearranged become mappers that are rearranged. -/
theorem finish_related {left right : Draft} (related : left.Rearranged right) (location : String)
    (depth : Nat) :
    Related (fun _ _ => True) Rearranged
      ((left.finish location depth).mapError LoadError.config)
      ((right.finish location depth).mapError LoadError.config) :=
  (related.finish_related location depth).mapError fun _ _ _ => trivial

/-- Where a fragment and what stands behind it change their places, the mapper is rearranged. -/
theorem read_swap {front fragment between : List UInt8} {tag : Tag} (inMapper : InMapper front)
    (isFragment : tag.text = "sql") (isElement : IsElement tag fragment)
    (balanced : Balanced between) (location : String) (depth : Nat) (back : List UInt8) :
    Related (fun _ _ => True) Rearranged
      (read location depth (front ++ (fragment ++ (between ++ back))))
      (read location depth (front ++ (between ++ (fragment ++ back)))) := by
  obtain ⟨outcome, opened, reads⟩ := Reader.exists_front inMapper location
  obtain ⟨body, child⟩ := Reader.exists_child isElement location
  obtain ⟨children, others⟩ := Reader.exists_children balanced location
  -- What becomes of a draft behind the part of the document that changes.
  let onward (draft : Draft) : Except LoadError Mapper :=
    (Reader.run location (.mapper draft) (eventsFrom opened back)).1 >>= fun draft =>
      (draft.finish location depth).mapError .config
  have continues (left right : Draft) (related : left.Rearranged right) :
      Related (fun _ _ => True) Rearranged (onward left) (onward right) := by
    have runs := Reader.run_related location Draft.rearranged_isHidden (.mapper related)
      (eventsFrom opened back)
    exact (runs.imp fun _ _ _ => trivial).bind fun _ _ related =>
      finish_related related location depth
  have before : read location depth (front ++ (fragment ++ (between ++ back))) =
      outcome >>= fun draft =>
        (Child.read ⟨tag, body⟩ draft >>= Child.readAll children) >>= onward := by
    rw [read_eq, reads]
    simp only [child, others, bind_assoc, onward]
  have behind : read location depth (front ++ (between ++ (fragment ++ back))) =
      outcome >>= fun draft =>
        (Child.readAll children draft >>= Child.read ⟨tag, body⟩) >>= onward := by
    rw [read_eq, reads]
    simp only [child, others, bind_assoc, onward]
  have same : Related (fun _ _ => True) Eq outcome outcome :=
    .refl (fun _ => trivial) (fun _ => rfl) _
  rw [before, behind]
  exact same.bind_eq fun draft => (Child.readAll_swap isFragment children draft).bind continues

/-- What is put between the children of a mapper does not matter. -/
theorem read_insert {front filler : List UInt8} (inMapper : InMapper front)
    (isFiller : IsFiller filler) (location : String) (depth : Nat) (back : List UInt8) :
    read location depth (front ++ (filler ++ back)) = read location depth (front ++ back) := by
  obtain ⟨outcome, opened, reads⟩ := Reader.exists_front inMapper location
  rw [read_eq, read_eq, reads, reads]
  simp only [Reader.run_filler isFiller]

/-- Documents that differ in their layout give mappers that are rearranged, or no mappers. -/
theorem read_related {left right : List UInt8} (relaid : Relaid left right) (location : String)
    (depth : Nat) :
    Related (fun _ _ => True) Rearranged (read location depth left) (read location depth right) := by
  induction relaid with
  | insert inMapper isFiller =>
      rw [read_insert inMapper isFiller]
      exact .refl (fun _ => trivial) Rearranged.refl _
  | later inMapper isFragment isElement balanced =>
      exact read_swap inMapper isFragment isElement balanced location depth _
  | earlier inMapper isFragment isElement balanced =>
      have later := read_swap inMapper isFragment isElement balanced location depth
      exact (later _).symm (fun _ => trivial) Rearranged.symm
  | trans _ _ before after => exact before.trans (fun _ _ => trivial) Rearranged.trans after

/-- A document that is read as a mapper has the outline of one, and in another layout it is read as
a mapper with the same namespace, the same statements in the same order, and the same fragments. -/
theorem read_relaid {document : List UInt8} {location : String} {depth : Nat} {mapper : Mapper}
    (reads : read location depth document = .ok mapper) :
    HoldsMapper document ∧ ∀ other, Relaid document other →
      ∃ twin, read location depth other = .ok twin ∧ mapper.Rearranged twin := by
  refine ⟨holdsMapper_of_read reads, fun other relaid => ?_⟩
  have related := read_related relaid location depth
  rw [reads] at related
  generalize read location depth other = outcome at related
  cases related with
  | result rearranged => exact ⟨_, rfl, rearranged⟩

end Mapper

/-! ## Printed mappers -/

/-- A printed element is balanced. -/
theorem balanced_element {name : String} (isName : isName name = true) {fields : Fields}
    (proper : fields.areProper = true) {inner : List UInt8} (balanced : Balanced inner) :
    Balanced (element name fields inner) :=
  (Markup.isElement_element isName proper balanced).balanced

theorem areProper_one {key : String} (keyIsName : isName key = true) (value : String) :
    Fields.areProper [(key, some value)] = true :=
  Fields.areProper_singleton keyIsName (some value)

theorem Element.balanced_print (element : Element) {inner : List UInt8}
    (balanced : Balanced inner) : Balanced (element.print inner) :=
  balanced_element element.isName_tag element.areProper_fields balanced

mutual
/-- The bytes of a node are balanced. -/
theorem Node.balanced_print : ∀ node : Node, Balanced node.print
  | .text content => Markup.balanced_text (Markup.angle_not_mem_escaped false content.raw)
  | .conditional test body =>
      (Element.conditional test).balanced_print (balanced_printAll body)
  | .choice branches otherwise =>
      balanced_element (by decide) rfl
        ((balanced_printBranches branches).append (balanced_printOtherwise otherwise))
  | .foreach loop body => (Element.foreach loop).balanced_print (balanced_printAll body)
  | .trim trimming body => (Element.trim trimming).balanced_print (balanced_printAll body)
  | .whereClause body => Element.whereClause.balanced_print (balanced_printAll body)
  | .setClause body => Element.setClause.balanced_print (balanced_printAll body)
  | .reference name => balanced_element (by decide) (areProper_one (by decide) name) .nil
  | .sequence body => balanced_printAll body

/-- The bytes of nodes are balanced. -/
theorem balanced_printAll : ∀ nodes : List Node, Balanced (printAll nodes)
  | [] => .nil
  | node :: nodes => node.balanced_print.append (balanced_printAll nodes)

/-- The bytes of branches are balanced. -/
theorem balanced_printBranches :
    ∀ branches : List (String × List Node), Balanced (printBranches branches)
  | [] => .nil
  | (test, body) :: branches =>
      (balanced_element (by decide) (areProper_one (by decide) test)
        (balanced_printAll body)).append (balanced_printBranches branches)

/-- The bytes of the part for the case that no test holds are balanced. -/
theorem balanced_printOtherwise :
    ∀ otherwise : Option (List Node), Balanced (printOtherwise otherwise)
  | none => .nil
  | some body => balanced_element (by decide) rfl (balanced_printAll body)
end

namespace Draft

/-- The bytes of a fragment are an element that is a fragment. -/
theorem isElement_printFragment (id : String) (nodes : List Node) :
    IsElement (writtenTag "sql" [("id", some id)]) (printFragment (id, nodes)) :=
  Markup.isElement_element (by decide) (areProper_one (by decide) id) (balanced_printAll nodes)

/-- The bytes of a statement are balanced. -/
theorem balanced_printStatement (head : StatementHead) (nodes : List Node) :
    Balanced (printStatement (head, nodes)) :=
  balanced_element (Reader.isName_name head.kind) (Reader.areProper_fields head)
    (balanced_printAll nodes)

end Draft

namespace Mapper

/-- A fragment with a text. -/
def columnsFragment : String × List Node := ("columns", [.text ⟨"total", "total", [], false⟩])

/-- A statement that refers to the fragment. -/
def totalsQuery : StatementHead × List Node :=
  (⟨"totals", .select, none, none, none⟩, [.reference "columns"])

/-- The start tag of a mapper with orders. -/
def ordersTag : List UInt8 := startTag "mapper" [("namespace", some "orders")]

/-- A skipped element with another one of its kind and a statement in it. -/
def nestedCache : List UInt8 :=
  element "cache" [] (element "cache" [] [] ++ Draft.printStatement totalsQuery)

theorem relaid_orders :
    Relaid
      (ordersTag ++ (Draft.printFragment columnsFragment ++
        (Draft.printStatement totalsQuery ++ endTag "mapper")))
      (ordersTag ++ (nestedCache ++ (Draft.printStatement totalsQuery ++
        (Draft.printFragment columnsFragment ++ endTag "mapper")))) := by
  have inMapper : InMapper ordersTag :=
    inMapper_startTag (by decide) (areProper_one (by decide) "orders")
  have query : Balanced (Draft.printStatement totalsQuery) := Draft.balanced_printStatement ..
  have cache : IsElement (writtenTag "cache" []) nestedCache :=
    Markup.isElement_element (by decide) rfl
      ((balanced_element (by decide) rfl .nil).append query)
  have isSkipped : (writtenTag "cache" []).text ∈ Reader.skippedTags := by
    rw [text_writtenTag (by decide)]
    decide
  have fragment : IsElement (writtenTag "sql" [("id", some "columns")])
      (Draft.printFragment columnsFragment) := Draft.isElement_printFragment ..
  exact .trans (.later inMapper (text_writtenTag (by decide) _) fragment query)
    (.insert inMapper (.element isSkipped cache))

/-- The fragment stands in front of the statement that refers to it. -/
theorem read_orders :
    read memory defaultDepth (ordersTag ++ (Draft.printFragment columnsFragment ++
      (Draft.printStatement totalsQuery ++ endTag "mapper"))) =
        .ok ⟨"orders", [totalsQuery.1.statement "orders" columnsFragment.2],
          [columnsFragment]⟩ := by
  have fragment : Reader.Leads memory false (Draft.printFragment columnsFragment)
      (.mapper (.empty "orders")) (.mapper ⟨"orders", [], [columnsFragment]⟩) := by
    refine Reader.leads_fragment ⟨by decide, rfl⟩ ⟨⟨?_, trivial⟩, .singleton _⟩ rfl
    exact ⟨"total", by decide, rfl, rfl⟩
  have query : Reader.Leads memory false (Draft.printStatement totalsQuery)
      (.mapper ⟨"orders", [], [columnsFragment]⟩)
      (.mapper ⟨"orders", [totalsQuery], [columnsFragment]⟩) :=
    Reader.leads_statement ⟨by decide, rfl⟩ ⟨⟨⟨by decide, rfl⟩, trivial⟩, .singleton _⟩ rfl
  rw [read_eq, ordersTag, Reader.run_mapperTag ⟨by decide, rfl⟩, ← List.append_assoc,
    (fragment.before query) _ _ (fun never => by cases never), Reader.eventsFrom_mapperEnd]
  rfl

/-- The fragment may as well stand behind the statement, and a cache in front of both. -/
theorem read_relaid_orders :
    ∃ twin, read memory defaultDepth (ordersTag ++ (nestedCache ++
        (Draft.printStatement totalsQuery ++
          (Draft.printFragment columnsFragment ++ endTag "mapper")))) = .ok twin ∧
      Rearranged ⟨"orders", [totalsQuery.1.statement "orders" columnsFragment.2],
        [columnsFragment]⟩ twin :=
  (read_relaid read_orders).2 _ relaid_orders

end Mapper

end SqlTemplate
