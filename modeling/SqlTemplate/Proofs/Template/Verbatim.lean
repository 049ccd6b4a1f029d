import SqlTemplate.Proofs.Template.Gap
import SqlTemplate.Proofs.Text.Respaced
import SqlTemplate.Template.Render

/-!
# Text that is kept as it is written

A source makes a text node in two ways: its spacing is made uniform, or it only loses the blanks at
its ends.  Uniform spacing looks at quotes and not at markers, and a literal may begin or end inside
of a marker.  All the same both nodes have the same markers (`TextNode.flowing_reads_verbatim`):
one is made exactly when the other is, their statement texts differ in blanks only, and so do the
names of their bound values one by one.  Names without blanks are therefore the same names, and the
nodes bind the same values in every scope.
-/

namespace SqlTemplate.TextNode

set_option autoImplicit false

open Outcome
open Text (Respaced isBlank)

/-! ## Names -/

/-- The names of the bound values are those that the markers enclose. -/
theorem boundNames_eq_map (pieces : List Text.Piece) :
    boundNames pieces = (Text.enclosures pieces).map Text.markedName := by
  rw [boundNames, Text.enclosures, List.map_filterMap]
  refine congrArg (List.filterMap · pieces) (funext fun piece => ?_)
  cases piece <;> rfl

/-- The names of two texts that differ in blanks differ in blanks. -/
theorem boundNames_respaced {left right : List Char} (respaced : Respaced left right) :
    List.Forall₂ Respaced (boundNames (Text.pieces .bound left))
      (boundNames (Text.pieces .bound right)) := by
  rw [boundNames_eq_map, boundNames_eq_map, List.forall₂_map_left_iff, List.forall₂_map_right_iff]
  exact (respaced.enclosures_pieces .bound).imp fun _ _ => Respaced.markedName

/-- A marker without a name stands in both texts or in none. -/
theorem nameless_iff {lefts rights : List (List Char)}
    (respaced : List.Forall₂ Respaced lefts rights) : [] ∈ lefts ↔ [] ∈ rights := by
  induction respaced with
  | nil => exact Iff.rfl
  | cons here _ ih =>
      rw [List.mem_cons, List.mem_cons, eq_comm, here.eq_nil_iff, ih, eq_comm]

/-! ## Statement texts -/

/-- Blanks outside of the markers of bound values stay, and those inside go with the marker. -/
theorem withPlaceholders_blanks {blanks : List Char} (blank : ∀ c ∈ blanks, isBlank c = true)
    (inside : Bool) (behind : List Char) :
    withPlaceholders (Text.piecesFrom .bound inside (blanks ++ behind)) =
      (if inside then [] else blanks) ++
        withPlaceholders (Text.piecesFrom .bound inside behind) := by
  have kept (blanks : List Char) : withPlaceholders (blanks.map .char) = blanks := by
    simp [withPlaceholders, Function.comp_def]
  rw [Text.piecesFrom_blanks blank, withPlaceholders, List.map_append]
  cases inside with
  | false => exact congrArg (· ++ _) (kept blanks)
  | true => rfl

/-- The statement texts of two texts that differ in blanks differ in blanks. -/
theorem withPlaceholders_respaced {left right : List Char} (respaced : Respaced left right)
    (inside : Bool) :
    Respaced (withPlaceholders (Text.piecesFrom .bound inside left))
      (withPlaceholders (Text.piecesFrom .bound inside right)) := by
  induction respaced generalizing inside with
  | nil => exact .nil
  | @char left right c later ih =>
      cases inside with
      | true => exact ih _
      | false =>
          rw [Text.piecesFrom, Text.piecesFrom, later.startsAt_eq c]
          split
          · exact .char placeholder (ih true)
          · exact .char c (ih false)
  | gap some otherSome blank otherBlank _ ih =>
      rw [withPlaceholders_blanks blank, withPlaceholders_blanks otherBlank]
      cases inside with
      | true => exact ih true
      | false => exact .gap some otherSome blank otherBlank (ih false)

/-! ## Nodes -/

/-- Two text nodes that differ in blanks only. -/
structure ReadsLike (text other : TextNode) : Prop where
  isSpliced : text.isSpliced = other.isSpliced
  sql : Respaced text.sql.toList other.sql.toList
  names : List.Forall₂ (fun name twin => Respaced name.toList twin.toList) text.parameters
    other.parameters

/-- Raw texts that differ in blanks make nodes that differ in blanks, or none of them makes one. -/
theorem ofRaw_respaced {raw twin : String} (respaced : Respaced raw.toList twin.toList) :
    (Succeeds (ofRaw raw) ↔ Succeeds (ofRaw twin)) ∧
      ∀ text other, ofRaw raw = .ok text → ofRaw twin = .ok other → text.ReadsLike other := by
  have names := boundNames_respaced respaced
  refine ⟨?_, fun text other made otherMade => ?_⟩
  · rw [succeeds_ofRaw_iff, succeeds_ofRaw_iff]
    exact not_congr (nameless_iff names)
  · rw [eq_of_ofRaw made, eq_of_ofRaw otherMade]
    refine ⟨respaced.hasMarker_eq .spliced, ?_, ?_⟩
    · rw [String.toList_ofList, String.toList_ofList]
      exact withPlaceholders_respaced respaced false
    · rw [List.forall₂_map_left_iff, List.forall₂_map_right_iff]
      exact names.imp fun _ _ here => by rwa [String.toList_ofList, String.toList_ofList]

/-- A name without its blanks. -/
def withoutBlanks (name : String) : List Char := name.toList.filter fun c => !isBlank c

/-- A name that has no blank in it. -/
def HasNoBlank (name : String) : Prop := ∀ c ∈ name.toList, isBlank c = false

/-- The values that a text node binds in a scope: one for each name, in the order of the names. -/
def BindsTo (scope : Scope) (text : TextNode) (values : List Value) : Prop :=
  List.Forall₂ (fun name value => scope.resolve name = .ok (some value)) text.parameters values

/-! ## Values -/

section

variable {text other : TextNode} {scope : Scope}

theorem require_eq_ok_iff {raw name : String} {value : Value} :
    scope.require raw name = .ok value ↔ scope.resolve name = .ok (some value) := by
  rw [Scope.require]
  split <;> simp_all

/-- Names are bound to values exactly when each of them has its value. -/
theorem bindsTo_iff {values : List Value} :
    text.BindsTo scope values ↔ text.parameters.mapM (scope.require text.raw) = .ok values := by
  constructor
  · intro binds
    exact mapM_eq_ok_of_forall₂ (binds.imp fun _ _ => require_eq_ok_iff.mpr)
  · intro bound
    exact (forall₂_of_mapM_eq_ok bound).imp fun _ _ => require_eq_ok_iff.mp

/-- What is rendered carries the values that the node binds. -/
theorem bindsTo_of_render {part : Fragment} (renders : text.render scope = .ok (some part)) :
    text.BindsTo scope part.args := by
  obtain ⟨values, bound, renders⟩ := bind_eq_ok_iff.mp renders
  have shown : ∃ sql, Fragment.nonempty? ⟨sql, values⟩ = some part := by
    split at renders
    · obtain ⟨sql, _, keeps⟩ := bind_eq_ok_iff.mp renders
      exact ⟨sql, Except.ok.inj keeps⟩
    · exact ⟨text.sql, Except.ok.inj renders⟩
  obtain ⟨sql, keeps⟩ := shown
  rw [Fragment.nonempty?] at keeps
  split at keeps
  · cases keeps
  · cases keeps
    exact bindsTo_iff.mpr bound

/-- A node into which nothing is spliced is rendered exactly when its names have values. -/
theorem succeeds_render_iff (fixed : text.isSpliced = false) :
    Succeeds (text.render scope) ↔ ∃ values, text.BindsTo scope values := by
  have renders : text.render scope = text.parameters.mapM (scope.require text.raw) >>= fun values =>
      .ok (Fragment.nonempty? ⟨text.sql, values⟩) := by
    rw [render, fixed]
    rfl
  rw [renders, succeeds_map_iff]
  exact exists_congr fun _ => bindsTo_iff.symm

/-- Two text nodes that bind the same values in a scope, in the same order. -/
structure BindsLike (scope : Scope) (text other : TextNode) : Prop where
  values : ∀ values, text.BindsTo scope values ↔ other.BindsTo scope values
  args : ∀ part twin, text.render scope = .ok (some part) →
    other.render scope = .ok (some twin) → part.args = twin.args
  renders : text.isSpliced = false → (Succeeds (text.render scope) ↔ Succeeds (other.render scope))

/-- Nodes with the same names bind the same values. -/
theorem bindsLike_of_parameters (same : text.parameters = other.parameters)
    (spliced : text.isSpliced = other.isSpliced) : BindsLike scope text other := by
  have values (values : List Value) : text.BindsTo scope values ↔ other.BindsTo scope values := by
    rw [BindsTo, BindsTo, same]
  refine ⟨values, fun part twin renders otherRenders => ?_, fun fixed => ?_⟩
  · have binds := bindsTo_iff.mp ((values part.args).mp (bindsTo_of_render renders))
    rw [bindsTo_iff.mp (bindsTo_of_render otherRenders)] at binds
    exact (Except.ok.inj binds).symm
  · rw [succeeds_render_iff fixed, succeeds_render_iff (spliced ▸ fixed)]
    exact exists_congr values

namespace ReadsLike

/-- The names are the same but for their blanks, and a name without blanks is the same name. -/
theorem names_alike (reads : text.ReadsLike other) :
    List.Forall₂ (fun name twin => withoutBlanks name = withoutBlanks twin ∧
      (HasNoBlank name ∨ HasNoBlank twin → name = twin)) text.parameters other.parameters :=
  reads.names.imp fun _ _ here =>
    ⟨here.filter_eq, fun noBlank => String.toList_inj.mp (here.eq_of_noBlank noBlank)⟩

/-- Nodes that differ in blanks have the same names if those of one node have no blanks. -/
theorem parameters_eq (reads : text.ReadsLike other)
    (noBlank : (∀ name ∈ text.parameters, HasNoBlank name) ∨
      ∀ name ∈ other.parameters, HasNoBlank name) : text.parameters = other.parameters := by
  have names := reads.names_alike
  generalize text.parameters = lefts at names noBlank
  generalize other.parameters = rights at names noBlank
  induction names with
  | nil => rfl
  | cons here _ ih =>
      simp only [List.forall_mem_cons] at noBlank
      rw [here.2 (noBlank.imp And.left And.left), ih (noBlank.imp And.right And.right)]

end ReadsLike

end

/-- **Both kinds of text have the same markers.** Of every source a node with uniform spacing is
made exactly when one is made of the source as it is written.  Then values are spliced into both or
into none, their statement texts differ in blanks only, and they have equally many bound names, which
are the same in order once their blanks are taken away.  If the names of one node have no blanks,
they are those of the other, and both bind the same values in every scope. -/
theorem flowing_reads_verbatim (source : String) :
    (Succeeds (flowing source) ↔ Succeeds (verbatim source)) ∧
      ∀ plain kept, flowing source = .ok plain → verbatim source = .ok kept →
        plain.isSpliced = kept.isSpliced ∧
          Respaced plain.sql.toList kept.sql.toList ∧
          plain.parameters.length = kept.parameters.length ∧
          List.Forall₂ (fun name other => withoutBlanks name = withoutBlanks other ∧
            (HasNoBlank name ∨ HasNoBlank other → name = other)) plain.parameters kept.parameters ∧
          ((∀ name ∈ plain.parameters, HasNoBlank name) ∨
              (∀ name ∈ kept.parameters, HasNoBlank name) →
            plain.parameters = kept.parameters ∧ ∀ scope, BindsLike scope plain kept) := by
  obtain ⟨succeeds, alike⟩ := ofRaw_respaced (Text.respaced_uniform source)
  refine ⟨succeeds, fun plain kept made otherMade => ?_⟩
  have reads := alike plain kept made otherMade
  refine ⟨reads.isSpliced, reads.sql, reads.names.length_eq, reads.names_alike, fun noBlank => ?_⟩
  have same := reads.parameters_eq noBlank
  exact ⟨same, fun scope => bindsLike_of_parameters same reads.isSpliced⟩

example : (flowing "#\x7bdon't\n a\x7d  =  #\x7bit's  , x\x7d").map parameters =
    .ok ["don't\n a", "it's"] := by
  decide +kernel

end SqlTemplate.TextNode
