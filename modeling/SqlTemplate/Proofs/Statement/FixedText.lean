import SqlTemplate.Mapper.Draft
import SqlTemplate.Proofs.Template.Joining
import SqlTemplate.Proofs.Template.TextNode
import SqlTemplate.Statement.Bind

/-!
# Fixed texts and templates bind alike

A statement whose body is text without anything spliced in has a fixed text and no template.  It
could as well keep its body as a template: both ways give the same text and the same arguments, and
where one fails the other fails at the same name (`Statement.ofTexts_bindsLike`).

The fixed text is joined once, with a space between all parts, and its names are resolved one after
the other; the template joins the parts anew in each rendering and resolves the names part by part.
`Alike` relates the outcomes of the two ways, and every step of the one is alike to the step of the
other.
-/

namespace SqlTemplate

set_option autoImplicit false

open Outcome

/-! ## Texts that are kept as they are -/

/-- A text with characters into which nothing is spliced. -/
structure TextNode.IsFixed (text : TextNode) : Prop where
  sql_ne : text.sql ≠ ""
  notSpliced : text.isSpliced = false

/-- A node made of a text that is not blank is fixed if nothing is spliced into it. -/
theorem TextNode.MadeOf.isFixed {source : String} {text : TextNode} (made : MadeOf source text)
    (notBlank : Text.isAllBlank source = false) (notSpliced : text.isSpliced = false) :
    text.IsFixed :=
  ⟨made.sql_ne notBlank, notSpliced⟩

/-- A fixed text contributes its text with the values of its names. -/
theorem TextNode.IsFixed.render_eq {text : TextNode} (fixed : text.IsFixed) (scope : Scope) :
    text.render scope =
      (text.parameters.mapM (scope.require text.raw)).map fun args => some ⟨text.sql, args⟩ := by
  rw [TextNode.render, fixed.notSpliced]
  cases text.parameters.mapM (scope.require text.raw) with
  | error fault => rfl
  | ok args => exact congrArg Except.ok (Fragment.nonempty?_of_ne fixed.sql_ne)

/-! ## Outcomes that are alike -/

/-- The faults of binding a fixed text and of rendering its template that are about the same name,
for the same reason. -/
inductive AlikeFault (key shape : String) : Stop BindError → Stop RenderError → Prop
  | missing (name sql : String) :
      AlikeFault key shape (.fault (.binding key (.notFound name shape)))
        (.fault (.unresolved name sql))
  | invalid (cause : InvalidPath) :
      AlikeFault key shape (.fault (.rendering key (.invalidPath cause)))
        (.fault (.invalidPath cause))

/-- The outcomes of binding a fixed text and of rendering its template, which succeed with the same
result or fail at the same name for the same reason; none of them is aborted. -/
abbrev Alike (key shape : String) {α : Type} :
    Except (Stop BindError) α → Except (Stop RenderError) α → Prop :=
  Related (AlikeFault key shape) Eq

namespace Alike

variable {key shape : String} {α : Type}
variable {fixed : Except (Stop BindError) α} {rendered : Except (Stop RenderError) α}

theorem ok_iff (alike : Alike key shape fixed rendered) (result : α) :
    fixed = .ok result ↔
      rendered.mapError (Stop.map (BindError.rendering key)) = .ok result := by
  obtain ⟨_ | _⟩ | ⟨rfl⟩ := alike <;> simp [Except.mapError]

theorem missing_iff (alike : Alike key shape fixed rendered) (name : String) :
    fixed = .error (.fault (.binding key (.notFound name shape))) ↔
      ∃ sql, rendered.mapError (Stop.map (BindError.rendering key)) =
        .error (.fault (.rendering key (.unresolved name sql))) := by
  obtain ⟨_ | _⟩ | ⟨rfl⟩ := alike <;> simp [Except.mapError, Stop.map]

theorem invalid_iff (alike : Alike key shape fixed rendered) (cause : InvalidPath) :
    fixed = .error (.fault (.rendering key (.invalidPath cause))) ↔
      rendered.mapError (Stop.map (BindError.rendering key)) =
        .error (.fault (.rendering key (.invalidPath cause))) := by
  obtain ⟨_ | _⟩ | ⟨rfl⟩ := alike <;> simp [Except.mapError, Stop.map]

theorem noOther (alike : Alike key shape fixed rendered) {stop : Stop BindError}
    (fails : fixed = .error stop) :
    (∃ name, stop = .fault (.binding key (.notFound name shape))) ∨
      ∃ cause, stop = .fault (.rendering key (.invalidPath cause)) := by
  subst fails
  obtain ⟨missing | invalid⟩ := alike
  · exact .inl ⟨_, rfl⟩
  · exact .inr ⟨_, rfl⟩

end Alike

/-! ## The two ways, name by name and part by part -/

namespace Statement

variable (statement : Statement) (params : Params)

theorem argument_alike (sql name : String) :
    Alike statement.key params.shape (reported (statement.argument params name))
      (reported ((Scope.root params).require sql name)) := by
  rw [argument, Scope.require]
  cases (Scope.root params).resolve name with
  | error cause => exact .fault (.invalid cause)
  | ok value =>
      cases value with
      | none => exact .fault (.missing name sql)
      | some value => exact .result rfl

theorem arguments_alike (sql : String) (names : List String) :
    Alike statement.key params.shape (reported (names.mapM (statement.argument params)))
      (reported (names.mapM ((Scope.root params).require sql))) := by
  induction names with
  | nil => exact .result rfl
  | cons name names ih =>
      rw [List.mapM_cons, List.mapM_cons, reported_bind, reported_bind]
      refine (statement.argument_alike params sql name).bind_eq fun value => ?_
      rw [reported_bind, reported_bind]
      exact ih.bind_eq fun values => .result rfl

/-- The fixed text of a body with its arguments is alike to what its parts give as a template. -/
theorem fragment_alike (texts : List TextNode) (fixed : ∀ text ∈ texts, text.IsFixed) :
    Alike statement.key params.shape
      (reported (((texts.flatMap TextNode.parameters).mapM (statement.argument params)).map
        (Fragment.mk (" ".intercalate (texts.map TextNode.sql)))))
      (joinAll (.root params) (texts.map Node.text)) := by
  induction texts with
  | nil => exact .result rfl
  | cons text texts ih =>
      have textFixed := fixed text (List.mem_cons_self ..)
      have othersFixed : ∀ other ∈ texts, other.IsFixed := fun other member =>
        fixed other (List.mem_cons_of_mem _ member)
      have joined : Fragment.joinText text.sql (" ".intercalate (texts.map TextNode.sql)) =
          " ".intercalate (text.sql :: texts.map TextNode.sql) :=
        Fragment.joinText_intercalate textFixed.sql_ne
          (List.forall_mem_map.mpr fun other member => (othersFixed other member).sql_ne)
      -- The names of the first part and those of the others are resolved in two runs.
      have runs : ((text :: texts).flatMap TextNode.parameters |>.mapM
            (statement.argument params)).map
            (Fragment.mk (" ".intercalate ((text :: texts).map TextNode.sql))) =
          (text.parameters.mapM (statement.argument params)).map
              (fun args => some (Fragment.mk text.sql args)) >>= fun part =>
            ((texts.flatMap TextNode.parameters).mapM (statement.argument params)).map
                (Fragment.mk (" ".intercalate (texts.map TextNode.sql))) >>= fun more =>
              .ok (part.getD .empty ++ more) := by
        rw [List.flatMap_cons, List.mapM_append, List.map_cons, ← joined]
        cases text.parameters.mapM (statement.argument params) with
        | error fault => rfl
        | ok args =>
            cases (texts.flatMap TextNode.parameters).mapM (statement.argument params) with
            | error fault => rfl
            | ok more => rfl
      rw [runs, List.map_cons, joinAll, Node.render, textFixed.render_eq, reported_bind,
        reported_map, reported_map]
      refine ((statement.arguments_alike params text.raw text.parameters).map_eq _).bind_eq
        fun part => ?_
      rw [reported_bind]
      exact (ih othersFixed).bind_eq fun more => .result rfl

/-! ## Binding -/

/-- The statement rendered from a template made of this body. -/
def withTemplate (body : List Node) : Statement :=
  { statement with template := some (.sequence body) }

end Statement

/-- Parameters that are looked up by name: a single value, named values or an accessor. -/
def Params.IsByName : Params → Prop
  | .scalar _ | .named _ | .accessor _ => True
  | .none | .positional _ => False

/-- How a statement with a fixed text and a statement with a template correspond.  With parameters
by name both succeed with the same result, or the first name without a value or with a faulty path
is the same; without parameters they succeed together; and the fixed text takes positional
parameters in their order exactly when there are as many as names. -/
structure Statement.BindsLike (fixed dynamic : Statement) : Prop where
  success {params : Params} (byName : params.IsByName) (bound : BoundStatement) :
    fixed.bind params = .ok bound ↔ dynamic.bind params = .ok bound
  missing {params : Params} (byName : params.IsByName) (name : String) :
    fixed.bind params = .error (.fault (.binding fixed.key (.notFound name params.shape))) ↔
      ∃ sql, dynamic.bind params = .error (.fault (.rendering fixed.key (.unresolved name sql)))
  invalid {params : Params} (byName : params.IsByName) (cause : InvalidPath) :
    fixed.bind params = .error (.fault (.rendering fixed.key (.invalidPath cause))) ↔
      dynamic.bind params = .error (.fault (.rendering fixed.key (.invalidPath cause)))
  noOther {params : Params} (byName : params.IsByName) (stop : Stop BindError) :
    fixed.bind params = .error stop →
      (∃ name, stop = .fault (.binding fixed.key (.notFound name params.shape))) ∨
        ∃ cause, stop = .fault (.rendering fixed.key (.invalidPath cause))
  withoutParams (bound : BoundStatement) :
    fixed.bind .none = .ok bound ↔ dynamic.bind .none = .ok bound
  positional (items : List Value) :
    (∃ bound, fixed.bind (.positional items) = .ok bound) ↔
      items.length = fixed.parameters.length
  inOrder (items : List Value) (bound : BoundStatement) :
    fixed.bind (.positional items) = .ok bound → bound.args = items

namespace Statement

/-- Binding only adds the key and the kind to the text and its arguments. -/
theorem bind_eq_map (statement : Statement) (params : Params) :
    statement.bind params = (statement.fragment params).map fun fragment =>
      ⟨statement.key, statement.kind, fragment.sql, fragment.args⟩ := by
  rw [bind]
  cases statement.fragment params with
  | error fault => rfl
  | ok fragment => rfl

section Texts

variable (head : StatementHead) (namespaceName : String) (texts : List TextNode)

/-- The statement made of texts. -/
abbrev ofTexts : Statement := head.statement namespaceName (texts.map Node.text)

/-- The statement made of texts, rendered from its body. -/
abbrev ofTextsRendered : Statement :=
  (ofTexts head namespaceName texts).withTemplate (texts.map Node.text)

theorem filterMap_text?_map_text : (texts.map Node.text).filterMap Node.text? = texts := by
  rw [List.filterMap_map]
  exact List.filterMap_some

theorem ofTexts_sql :
    (ofTexts head namespaceName texts).sql = " ".intercalate (texts.map TextNode.sql) :=
  congrArg (fun texts : List TextNode => " ".intercalate (texts.map TextNode.sql))
    (filterMap_text?_map_text texts)

theorem ofTexts_parameters :
    (ofTexts head namespaceName texts).parameters = texts.flatMap TextNode.parameters :=
  congrArg (List.flatMap TextNode.parameters) (filterMap_text?_map_text texts)

variable {texts}

theorem ofTexts_template (fixed : ∀ text ∈ texts, text.IsFixed) :
    (ofTexts head namespaceName texts).template = none := by
  have all : (texts.map Node.text).all Node.isFixedText = true := by
    rw [List.all_map, List.all_eq_true]
    intro text member
    simp [Node.isFixedText, (fixed text member).notSpliced]
  rw [ofTexts, StatementHead.statement, if_pos all]

theorem ofTexts_fragment (fixed : ∀ text ∈ texts, text.IsFixed) (params : Params) :
    (ofTexts head namespaceName texts).fragment params =
      reported (((ofTexts head namespaceName texts).fixedArguments params).map
        (Fragment.mk (" ".intercalate (texts.map TextNode.sql)))) := by
  rw [fragment, ofTexts_template head namespaceName fixed, ofTexts_sql]

theorem ofTextsRendered_fragment (params : Params) :
    (ofTextsRendered head namespaceName texts).fragment params =
      (joinAll (.root params) (texts.map Node.text)).mapError
        (Stop.map (BindError.rendering (ofTexts head namespaceName texts).key)) := by
  rw [← generate_sequence]
  rfl

/-- With names that are looked up, the two ways of binding texts are alike. -/
theorem ofTexts_alike (fixed : ∀ text ∈ texts, text.IsFixed) (params : Params) :
    Alike (ofTexts head namespaceName texts).key params.shape
      (reported (((ofTexts head namespaceName texts).parameters.mapM
        ((ofTexts head namespaceName texts).argument params)).map
          (Fragment.mk (" ".intercalate (texts.map TextNode.sql)))))
      (joinAll (.root params) (texts.map Node.text)) := by
  rw [ofTexts_parameters]
  exact (ofTexts head namespaceName texts).fragment_alike params texts fixed

/-- What binding makes of the fragment of a statement. -/
abbrev bound (statement : Statement) (fragment : Fragment) : BoundStatement :=
  ⟨statement.key, statement.kind, fragment.sql, fragment.args⟩

theorem ofTextsRendered_bind (params : Params) :
    (ofTextsRendered head namespaceName texts).bind params =
      ((joinAll (.root params) (texts.map Node.text)).map
        (bound (ofTexts head namespaceName texts))).mapError
          (Stop.map (BindError.rendering (ofTexts head namespaceName texts).key)) := by
  rw [bind_eq_map, ofTextsRendered_fragment]
  cases joinAll (.root params) (texts.map Node.text) with
  | error fault => rfl
  | ok fragment => rfl

/-- With parameters by name, binding the fixed text is alike to rendering it. -/
theorem bind_alike (fixed : ∀ text ∈ texts, text.IsFixed) {params : Params}
    (byName : params.IsByName) :
    Alike (ofTexts head namespaceName texts).key params.shape
      ((ofTexts head namespaceName texts).bind params)
      ((joinAll (.root params) (texts.map Node.text)).map
        (bound (ofTexts head namespaceName texts))) := by
  have lookups : (ofTexts head namespaceName texts).fixedArguments params =
      (ofTexts head namespaceName texts).parameters.mapM
        ((ofTexts head namespaceName texts).argument params) := by
    cases params with
    | none | positional items => exact byName.elim
    | scalar value | named members | accessor get? => rfl
  rw [bind_eq_map, ofTexts_fragment head namespaceName fixed, lookups]
  exact (ofTexts_alike head namespaceName fixed params).map_eq _

/-- Without parameters no name has a value. -/
theorem argument_none (statement : Statement) (name : String) (value : Value) :
    statement.argument .none name ≠ .ok value := by
  have noValue : ∀ path, (Scope.root .none).value? path = none := fun path => rfl
  rw [argument, Scope.resolve]
  cases Path.ofString? name with
  | error cause =>
      intro equal
      cases equal
  | ok path =>
      rw [Except.map, noValue]
      intro equal
      cases equal

/-- Without parameters both ways succeed exactly when no name is asked for. -/
theorem bind_none_iff (fixed : ∀ text ∈ texts, text.IsFixed) (result : BoundStatement) :
    (ofTexts head namespaceName texts).bind .none = .ok result ↔
      (ofTextsRendered head namespaceName texts).bind .none = .ok result := by
  have alike := (ofTexts_alike head namespaceName fixed .none).map_eq
    (bound (ofTexts head namespaceName texts))
  rw [ofTextsRendered_bind, ← Alike.ok_iff alike, bind_eq_map,
    ofTexts_fragment head namespaceName fixed, fixedArguments]
  cases (ofTexts head namespaceName texts).parameters with
  | nil => exact Iff.rfl
  | cons name names =>
      rw [List.mapM_cons]
      cases argument : (ofTexts head namespaceName texts).argument .none name with
      | error fault =>
          constructor <;> intro equal <;> cases equal
      | ok value => exact absurd argument (argument_none _ name value)

/-- **Fixed texts and templates bind alike.** -/
theorem ofTexts_bindsLike (fixed : ∀ text ∈ texts, text.IsFixed) :
    (ofTexts head namespaceName texts).template = none ∧
      (ofTexts head namespaceName texts).BindsLike
        (ofTextsRendered head namespaceName texts) := by
  refine ⟨ofTexts_template head namespaceName fixed, ?_⟩
  exact
    { success := fun byName result => by
        rw [ofTextsRendered_bind]
        exact (bind_alike head namespaceName fixed byName).ok_iff result
      missing := fun byName name => by
        rw [ofTextsRendered_bind]
        exact (bind_alike head namespaceName fixed byName).missing_iff name
      invalid := fun byName cause => by
        rw [ofTextsRendered_bind]
        exact (bind_alike head namespaceName fixed byName).invalid_iff cause
      noOther := fun byName stop =>
        (bind_alike head namespaceName fixed byName).noOther
      withoutParams := bind_none_iff head namespaceName fixed
      positional := fun items => by
        rw [bind_eq_map, ofTexts_fragment head namespaceName fixed, fixedArguments]
        split <;> simp_all [Except.map, reported, Except.mapError]
      inOrder := fun items result succeeds => by
        rw [bind_eq_map, ofTexts_fragment head namespaceName fixed, fixedArguments] at succeeds
        split at succeeds
        · cases succeeds
          rfl
        · cases succeeds }

end Texts

/-- A statement of two texts whose names are resolved one after the other, and the second of which
has a faulty path. -/
def twoTexts : List TextNode :=
  [⟨"SELECT * FROM orders WHERE id = #{id}", "SELECT * FROM orders WHERE id = ?", ["id"], false⟩,
    ⟨"AND state = #{state..code}", "AND state = ?", ["state..code"], false⟩]

theorem ofTexts_bindsLike_twoTexts :
    (∀ text ∈ twoTexts, text.IsFixed) ∧
      (ofTexts ⟨"byId", .select, none, none, none⟩ "orders" twoTexts).template = none ∧
        (ofTexts ⟨"byId", .select, none, none, none⟩ "orders" twoTexts).BindsLike
          (ofTextsRendered ⟨"byId", .select, none, none, none⟩ "orders" twoTexts) := by
  have fixed : ∀ text ∈ twoTexts, text.IsFixed := by
    intro text member
    rcases List.mem_cons.mp member with rfl | member
    · have made : TextNode.MadeOf "\n  SELECT *\n  FROM orders WHERE id = #{id} " _ := .inl rfl
      exact made.isFixed rfl rfl
    · obtain rfl := List.mem_singleton.mp member
      have made : TextNode.MadeOf "AND state = #{state..code}" _ := .inr rfl
      exact made.isFixed rfl rfl
  exact ⟨fixed, ofTexts_bindsLike _ _ fixed⟩

end Statement

end SqlTemplate
