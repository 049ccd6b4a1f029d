import SqlTemplate.Proofs.Template.Extraction
import SqlTemplate.Proofs.Template.Mention

/-!
# Splicing in one pass

A text into which values are spliced is rendered in one pass from left to right.  The statement text
is divided at its spliced markers once, before any value is known; what a value puts in the place of
its marker is not looked at again.

What a rendering comes to is said here without the steps that render (`TextNode.OnePass`).

* If all bound names have values and all spans show something, then the text between the spans
  stays as it is, with what they show between, and the values are those of the bound names.
* If not, then the fault is that of the first bound name without a value.
* If there is no such name, it is that of the first span that shows nothing.

Every text has exactly one such outcome and rendering gives it (`TextNode.render_iff_onePass`).
A rendering reads the names of the text only: markers in a value are no names, so scopes that differ
in them give the same.
-/

namespace SqlTemplate

set_option autoImplicit false

open Outcome

/-! ## Names -/

namespace Scope

/-- The fault of a name that has no value; `raw` is the text that asks for it. -/
inductive Misses (scope : Scope) (raw name : String) : RenderError → Prop
  | noPath {cause : InvalidPath} (malformed : scope.resolve name = .error cause) :
      Misses scope raw name (.invalidPath cause)
  | noValue (absent : scope.resolve name = .ok none) :
      Misses scope raw name (.unresolved name raw)

/-- What is shown in the place of a marker that encloses a name: a text without question marks. -/
inductive Shows (scope : Scope) (name : String) : List Char → Prop
  | value {value : Value} {text : String} (found : scope.resolve name = .ok (some value))
      (written : value.WrittenAs text) (unmarked : TextNode.placeholder ∉ text.toList) :
      Shows scope name text.toList

/-- The fault of a marker that encloses a name. -/
inductive Fails (scope : Scope) (raw name : String) : RenderError → Prop
  | misses {fault : RenderError} (misses : scope.Misses raw name fault) :
      Fails scope raw name fault
  | composite {value : Value} (found : scope.resolve name = .ok (some value))
      (unwritten : ∀ text, ¬ value.WrittenAs text) :
      Fails scope raw name (.substitution name .composite)
  | marked {value : Value} {text : String} (found : scope.resolve name = .ok (some value))
      (written : value.WrittenAs text) (marked : TextNode.placeholder ∈ text.toList) :
      Fails scope raw name (.substitution name .placeholderCharacter)

section

variable {scope : Scope} {raw name : String}

theorem require_of_resolve {value : Value} (found : scope.resolve name = .ok (some value)) :
    scope.require raw name = .ok value := by
  rw [require, found]

theorem require_of_misses {fault : RenderError} (misses : scope.Misses raw name fault) :
    scope.require raw name = .error fault := by
  cases misses with
  | noPath malformed => rw [require, malformed]
  | noValue absent => rw [require, absent]

/-- A name has a value or misses one. -/
theorem resolves_or_misses (scope : Scope) (raw name : String) :
    (∃ value, scope.resolve name = .ok (some value)) ∨ ∃ fault, scope.Misses raw name fault := by
  cases resolved : scope.resolve name with
  | error cause => exact .inr ⟨_, .noPath resolved⟩
  | ok value? =>
      cases value? with
      | none => exact .inr ⟨_, .noValue resolved⟩
      | some value => exact .inl ⟨value, rfl⟩

/-- A marker shows something or fails. -/
theorem shows_or_fails (scope : Scope) (raw name : String) :
    (∃ chars, scope.Shows name chars) ∨ ∃ fault, scope.Fails raw name fault := by
  rcases scope.resolves_or_misses raw name with ⟨value, found⟩ | ⟨fault, misses⟩
  · by_cases written : ∃ text, value.WrittenAs text
    · obtain ⟨text, written⟩ := written
      by_cases marked : TextNode.placeholder ∈ text.toList
      · exact .inr ⟨_, .marked found written marked⟩
      · exact .inl ⟨_, .value found written marked⟩
    · exact .inr ⟨_, .composite found (not_exists.mp written)⟩
  · exact .inr ⟨fault, .misses misses⟩

end

end Scope

namespace Text

/-- The name of a span. -/
def Span.name (span : Span) : String := .ofList (markedName span.inside)

end Text

namespace TextNode

open Text

/-- The names that a text asks for, if it is divided so. -/
def asks (text : TextNode) (division : Division) : List String :=
  text.parameters ++ division.spans.map Span.name

/-- What the rendering of a text comes to, if it is divided so. -/
inductive OnePass (text : TextNode) (division : Division) (scope : Scope) :
    Except RenderError (Option Fragment) → Prop
  | renders {args : List Value} {shown : List (List Char)}
      (bound : List.Forall₂ (fun name value => scope.resolve name = .ok (some value))
        text.parameters args)
      (shows : List.Forall₂ (fun span chars => scope.Shows span.name chars) division.spans shown) :
      OnePass text division scope
        (.ok (Fragment.nonempty? ⟨.ofList (division.fill shown), args⟩))
  | unbound {before after : List String} {name : String} {fault : RenderError}
      (first : text.parameters = before ++ name :: after)
      (earlier : ∀ other ∈ before, ∃ value, scope.resolve other = .ok (some value))
      (misses : scope.Misses text.raw name fault) : OnePass text division scope (.error fault)
  | unshown {args : List Value} {before after : List Span} {span : Span} {fault : RenderError}
      (bound : List.Forall₂ (fun name value => scope.resolve name = .ok (some value))
        text.parameters args)
      (first : division.spans = before ++ span :: after)
      (earlier : ∀ other ∈ before, ∃ chars, scope.Shows other.name chars)
      (fails : scope.Fails text.raw span.name fault) : OnePass text division scope (.error fault)

/-! ## Spans -/

section

variable {scope : Scope} {raw : String}

/-- A marker whose name has a value is the text that is spliced in for it. -/
theorem splicePiece_of_resolve {span : Span} {value : Value}
    (found : scope.resolve span.name = .ok (some value)) :
    splicePiece scope raw (.marker span.inside) =
      (value.spliceText.mapError (RenderError.substitution span.name)).map String.toList := by
  have steps : splicePiece scope raw (.marker span.inside) =
      scope.require raw span.name >>= fun value =>
        value.spliceText.mapError (RenderError.substitution span.name) >>= fun text =>
          .ok text.toList := rfl
  rw [steps, Scope.require_of_resolve found, ← bind_ok_eq_map]
  rfl

theorem splicePiece_of_shows {span : Span} {chars : List Char}
    (shows : scope.Shows span.name chars) :
    splicePiece scope raw (.marker span.inside) = .ok chars := by
  cases shows with
  | value found written unmarked =>
      rw [splicePiece_of_resolve found, Value.spliceText_of_writtenAs written, if_neg unmarked]
      rfl

theorem splicePiece_of_fails {span : Span} {fault : RenderError}
    (fails : scope.Fails raw span.name fault) :
    splicePiece scope raw (.marker span.inside) = .error fault := by
  cases fails with
  | misses misses =>
      have missing : scope.require raw (.ofList (markedName span.inside)) = .error fault :=
        Scope.require_of_misses misses
      rw [splicePiece, missing]
      rfl
  | composite found unwritten =>
      rw [splicePiece_of_resolve found, Value.spliceText_of_not_writtenAs unwritten]
      rfl
  | marked found written marked =>
      rw [splicePiece_of_resolve found, Value.spliceText_of_writtenAs written, if_pos marked]
      rfl

/-! ## Divided texts -/

/-- Text that belongs to no marker stays. -/
theorem splicePieces_chars (chars : List Char) :
    (chars.map Piece.char).mapM (splicePiece scope raw) = .ok (chars.map ([·])) := by
  rw [List.mapM_map]
  exact mapM_eq_ok_map fun _ _ => rfl

/-- The first span is spliced before the others, with the text in front of it. -/
theorem splicePieces_cons (span : Span) (spans : List Span) (last : List Char) :
    (Division.pieces ⟨span :: spans, last⟩).mapM (splicePiece scope raw) =
      splicePiece scope raw (.marker span.inside) >>= fun chars =>
        (Division.pieces ⟨spans, last⟩).mapM (splicePiece scope raw) >>= fun parts =>
          .ok (span.before.map ([·]) ++ chars :: parts) := by
  rw [Division.pieces_cons, List.mapM_append, splicePieces_chars, List.mapM_cons]
  cases splicePiece scope raw (.marker span.inside) with
  | error fault => rfl
  | ok chars => cases (Division.pieces ⟨spans, last⟩).mapM (splicePiece scope raw) <;> rfl

/-- If all spans show something, the text between them stays. -/
theorem splicePieces_of_shows {spans : List Span} {shown : List (List Char)} (last : List Char)
    (shows : List.Forall₂ (fun span chars => scope.Shows span.name chars) spans shown) :
    ∃ parts, (Division.pieces ⟨spans, last⟩).mapM (splicePiece scope raw) = .ok parts ∧
      parts.flatten = Division.fill ⟨spans, last⟩ shown := by
  induction shows with
  | nil =>
      refine ⟨last.map ([·]), splicePieces_chars last, ?_⟩
      rw [← List.flatMap_def, List.flatMap_singleton']
      rfl
  | @cons span chars _ _ here _ ih =>
      obtain ⟨parts, splices, text⟩ := ih
      refine ⟨span.before.map ([·]) ++ chars :: parts, ?_, ?_⟩
      · rw [splicePieces_cons, splicePiece_of_shows here, splices]
        rfl
      · rw [List.flatten_append, List.flatten_cons, ← List.flatMap_def, List.flatMap_singleton',
          text]
        simp [Division.fill]

/-- The first span that shows nothing decides. -/
theorem splicePieces_of_fails {before after : List Span} {span : Span} {fault : RenderError}
    (earlier : ∀ other ∈ before, ∃ chars, scope.Shows other.name chars)
    (fails : scope.Fails raw span.name fault) (last : List Char) :
    (Division.pieces ⟨before ++ span :: after, last⟩).mapM (splicePiece scope raw) =
      .error fault := by
  induction before with
  | nil =>
      rw [List.nil_append, splicePieces_cons, splicePiece_of_fails fails]
      rfl
  | cons other before ih =>
      have ⟨⟨chars, here⟩, others⟩ := List.forall_mem_cons.mp earlier
      rw [List.cons_append, splicePieces_cons, splicePiece_of_shows here, ih others]
      rfl

end

/-! ## Outcomes -/

section

variable {text : TextNode} {division : Division}

/-- Something comes of every text. -/
theorem exists_onePass (text : TextNode) (division : Division) (scope : Scope) :
    ∃ outcome, text.OnePass division scope outcome := by
  rcases forall₂_or_exists_first (scope.resolves_or_misses text.raw) text.parameters with
    ⟨args, bound⟩ | ⟨before, name, after, fault, first, earlier, misses⟩
  · have spans := forall₂_or_exists_first
      (fun span : Span => scope.shows_or_fails text.raw span.name) division.spans
    rcases spans with ⟨shown, shows⟩ | ⟨before, span, after, fault, first, earlier, fails⟩
    · exact ⟨_, .renders bound shows⟩
    · exact ⟨_, .unshown bound first earlier fails⟩
  · exact ⟨_, .unbound first earlier misses⟩

/-- Names that have values are bound to them. -/
theorem bindNames_of_resolve {scope : Scope} {raw : String} {names : List String}
    {args : List Value}
    (bound : List.Forall₂ (fun name value => scope.resolve name = .ok (some value)) names args) :
    names.mapM (scope.require raw) = .ok args :=
  mapM_eq_ok_of_forall₂ (bound.imp fun _ _ => Scope.require_of_resolve)

/-- Names are bound before values are spliced in. -/
theorem render_of_isSpliced (spliced : text.isSpliced = true) (scope : Scope) :
    text.render scope =
      text.parameters.mapM (scope.require text.raw) >>= fun args =>
        text.splice scope >>= fun sql => .ok (Fragment.nonempty? ⟨sql, args⟩) := by
  simp only [render, spliced, if_true]

/-- A rendering comes to what one pass comes to. -/
theorem render_of_onePass (spliced : text.isSpliced = true)
    (divides : Marker.spliced.Divides text.sql.toList division) {scope : Scope}
    {outcome : Except RenderError (Option Fragment)}
    (passes : text.OnePass division scope outcome) : text.render scope = outcome := by
  rw [render_of_isSpliced spliced, splice, divides.pieces_eq]
  cases passes with
  | renders bound shows =>
      obtain ⟨parts, splices, filled⟩ := splicePieces_of_shows division.last shows
      rw [bindNames_of_resolve bound, splices, ← filled]
      rfl
  | @unbound before after name fault first earlier misses =>
      have fails : text.parameters.mapM (scope.require text.raw) = .error fault := by
        rw [first]
        refine mapM_eq_error ?_ (Scope.require_of_misses misses)
        intro other listed
        obtain ⟨value, found⟩ := earlier other listed
        exact ⟨value, Scope.require_of_resolve found⟩
      rw [fails]
      rfl
  | @unshown args before after span fault bound first earlier fails =>
      have spans : division = ⟨before ++ span :: after, division.last⟩ := by rw [← first]
      rw [bindNames_of_resolve bound, spans, splicePieces_of_fails earlier fails]
      rfl

/-- The names that a divided text asks for are those that its node asks for. -/
theorem queries_eq_asks (spliced : text.isSpliced = true)
    (divides : Marker.spliced.Divides text.sql.toList division) :
    (Node.text text).queries = text.asks division := by
  rw [Node.queries, if_pos spliced, asks, splicedNames, divides.pieces_eq, boundNames_pieces,
    List.map_map]
  rfl

end

/-- **Values are spliced in one pass.** A text with spliced values divides at its markers in exactly
one way, and it is the division with the markers in their places.  Rendering gives exactly what one
pass over the division comes to.  Only the names between the braces of its own markers matter:
markers in a value are not read. -/
theorem render_iff_onePass (text : TextNode) (spliced : text.isSpliced = true) :
    ∃ division, (∀ other, Marker.spliced.Divides text.sql.toList other ↔ other = division) ∧
      division.fill (division.spans.map fun span => Marker.spliced.written span.inside) =
          text.sql.toList ∧
        (∀ scope outcome, text.render scope = outcome ↔ text.OnePass division scope outcome) ∧
          ∀ left right : Scope,
            (∀ name ∈ text.asks division, left.resolve name = right.resolve name) →
              text.render left = text.render right := by
  obtain ⟨division, divides, unique⟩ := existsUnique_divides .spliced text.sql.toList
  refine ⟨division, fun other => ⟨unique other, ?_⟩, divides.fill_eq,
    fun scope outcome => ⟨?_, ?_⟩, ?_⟩
  · rintro rfl
    exact divides
  · intro renders
    obtain ⟨other, passes⟩ := exists_onePass text division scope
    rw [render_of_onePass spliced divides passes] at renders
    exact renders ▸ passes
  · exact render_of_onePass spliced divides
  · intro left right agree
    apply render_congr
    rwa [queries_eq_asks spliced divides]

/-- A query for columns that are given as text. -/
def report : TextNode :=
  ⟨"SELECT ${columns} FROM orders WHERE id = #{id}", "SELECT ${columns} FROM orders WHERE id = ?",
    ["id"], true⟩

/-- Columns that look like markers, for which there are no values. -/
def reportParams : Params :=
  .named [("columns", .text "'${total}', '#{owner}'"), ("id", .ofNat 7)]

theorem render_iff_onePass_report : report.isSpliced = true ∧
    ∃ division, (∀ other, Marker.spliced.Divides report.sql.toList other ↔ other = division) ∧
      ∃ fragment, report.OnePass division (.root reportParams) (.ok (some fragment)) ∧
        fragment.sql = "SELECT '${total}', '#{owner}' FROM orders WHERE id = ?" ∧
          fragment.args.length = 1 := by
  have rendered : (report.render (.root reportParams)).map
        (Option.map fun fragment => (fragment.sql, fragment.args.length)) =
      .ok (some ("SELECT '${total}', '#{owner}' FROM orders WHERE id = ?", 1)) := by
    decide +kernel
  obtain ⟨part, renders, equal⟩ := map_eq_ok_iff.mp rendered
  obtain ⟨fragment, rfl, pair⟩ := Option.map_eq_some_iff.mp equal
  obtain ⟨division, divides, _, passes, _⟩ := render_iff_onePass report rfl
  exact ⟨rfl, division, divides, fragment, (passes _ _).mp renders, Prod.mk.inj pair⟩

end TextNode

end SqlTemplate
