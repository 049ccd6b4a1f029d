import SqlTemplate.Proofs.Mapper.Soundness
import SqlTemplate.Proofs.Statement.Registry

/-!
# Every mapper that is read is well formed

Whatever bytes a document consists of and however deep references may go, a mapper that is read from
it is well formed (`Mapper.read_isWellFormed`): its names are labels, its statements have distinct
identifiers, no reference is left in them, and each is either fixed text or has a template, as its
expanded nodes demand.

So the statements of a mapper can always be registered together, and are found under their keys.
-/

namespace SqlTemplate

set_option autoImplicit false

open Outcome

/-! ## Well-formed statements and mappers -/

/-- A statement of a namespace that these expanded nodes make: they are sound and without
references, and the text is fixed exactly where all of them are text into which nothing is
spliced. -/
structure Statement.IsMadeOf (namespaceName : String) (nodes : List Node)
    (statement : Statement) : Prop where
  namespaceName_eq : statement.namespaceName = namespaceName
  id_isLabel : Text.IsLabel statement.id
  expanded : everywhere Node.IsExpanded nodes
  template_eq_none_iff : statement.template = none ↔ ∀ node ∈ nodes, node.isFixedText = true
  fixed : statement.template = none → ∃ texts : List TextNode,
    nodes = texts.map .text ∧ statement.sql = " ".intercalate (texts.map TextNode.sql) ∧
      statement.parameters = texts.flatMap TextNode.parameters ∧
        ∀ text ∈ texts, Text.hasMarker .spliced text.sql = false
  dynamic : ∀ root, statement.template = some root →
    root = .sequence nodes ∧ root.Everywhere Node.IsExpanded

/-- A mapper whose statements are made of the nodes that are written in the document, with the
references replaced, and that can be registered as a whole. -/
structure Mapper.IsWellFormed (location : String) (depth : Nat) (written : List (List Node))
    (mapper : Mapper) : Prop where
  namespaceName_isLabel : Text.IsLabel mapper.namespaceName
  ids_distinct : (mapper.statements.map Statement.id).Nodup
  statements : List.Forall₂
    (fun body statement => ∃ nodes,
      FragmentTable.expand ⟨location, mapper.namespaceName, mapper.fragments, depth⟩ body =
          .ok nodes ∧
        statement.IsMadeOf mapper.namespaceName nodes)
    written mapper.statements
  registers : ∃ registry, Registry.empty.registerAll mapper.statements = .ok registry ∧
    registry.size = mapper.statements.length ∧
      ∀ statement ∈ mapper.statements,
        registry.get? (mapper.namespaceName ++ "." ++ statement.id) = some statement

/-! ## Statements of expanded nodes -/

/-- Nodes that are all text are the nodes of their texts. -/
theorem map_text_filterMap_text? {nodes : List Node}
    (fixed : ∀ node ∈ nodes, node.isFixedText = true) :
    nodes = (nodes.filterMap Node.text?).map .text := by
  induction nodes with
  | nil => rfl
  | cons node nodes ih =>
      have ⟨here, later⟩ := List.forall_mem_cons.mp fixed
      cases node with
      | text content => exact congrArg (Node.text content :: ·) (ih later)
      | conditional | choice | foreach | trim | whereClause | setClause | reference | sequence =>
          cases here

/-- The statement of a head with a label and of expanded nodes. -/
theorem StatementHead.statement_isMadeOf {head : StatementHead} {namespaceName : String}
    {nodes : List Node} (label : Text.IsLabel head.id)
    (expanded : everywhere Node.IsExpanded nodes) :
    (head.statement namespaceName nodes).IsMadeOf namespaceName nodes := by
  have template : (head.statement namespaceName nodes).template =
      if nodes.all Node.isFixedText then none else some (.sequence nodes) := rfl
  have none_iff : (head.statement namespaceName nodes).template = none ↔
      ∀ node ∈ nodes, node.isFixedText = true := by
    rw [template, ← List.all_eq_true]
    split
    · rename_i all
      exact ⟨fun _ => all, fun _ => rfl⟩
    · rename_i notAll
      refine ⟨fun none => ?_, fun all => absurd all notAll⟩
      cases none
  refine ⟨rfl, label, expanded, none_iff, fun none => ?_, fun root dynamic => ?_⟩
  · have fixed := none_iff.mp none
    have texts := map_text_filterMap_text? fixed
    refine ⟨nodes.filterMap Node.text?, texts, rfl, rfl, fun text listed => ?_⟩
    have member : Node.text text ∈ nodes := by
      rw [texts]
      exact List.mem_map_of_mem listed
    have sound : text.IsSound := holds_of_mem_everywhere expanded member
    exact sound.hasMarker_sql (by simpa [Node.isFixedText] using fixed _ member)
  · rw [template] at dynamic
    split at dynamic
    · cases dynamic
    · cases dynamic
      exact ⟨rfl, trivial, expanded⟩

/-! ## Mappers of sound drafts -/

namespace Draft

/-- What a draft becomes, statement by statement. -/
theorem forall₂_of_finish {draft : Draft} {location : String} {depth : Nat} {mapper : Mapper}
    (finishes : draft.finish location depth = .ok mapper) :
    mapper.namespaceName = draft.namespaceName ∧ mapper.fragments = draft.fragments ∧
      List.Forall₂
        (fun (entry : StatementHead × List Node) statement => ∃ nodes,
          (draft.table location depth).expand entry.2 = .ok nodes ∧
            statement = entry.1.statement draft.namespaceName nodes)
        draft.statements mapper.statements := by
  obtain ⟨statements, made, equal⟩ := bind_eq_ok_iff.mp finishes
  cases equal
  refine ⟨rfl, rfl, (forall₂_of_mapM_eq_ok made).imp fun entry statement makes => ?_⟩
  obtain ⟨nodes, expands, equal⟩ := bind_eq_ok_iff.mp makes
  cases equal
  exact ⟨nodes, expands, rfl⟩

/-- The statements of the mapper have the identifiers of those of the draft. -/
theorem map_id_of_finish {draft : Draft} {location : String} {depth : Nat} {mapper : Mapper}
    (finishes : draft.finish location depth = .ok mapper) :
    mapper.statements.map Statement.id = draft.ids := by
  obtain ⟨_, _, made⟩ := forall₂_of_finish finishes
  rw [ids, ← List.forall₂_eq_eq_eq, List.forall₂_map_left_iff, List.forall₂_map_right_iff]
  refine made.flip.imp fun statement entry makes => ?_
  obtain ⟨nodes, _, rfl⟩ := makes
  rfl

theorem namespaceName_of_forall₂ {namespaceName : String} {table : FragmentTable}
    {written : List (List Node)} {statements : List Statement}
    (made : List.Forall₂
      (fun body statement => ∃ nodes, table.expand body = .ok nodes ∧
        statement.IsMadeOf namespaceName nodes) written statements) :
    ∀ statement ∈ statements, statement.namespaceName = namespaceName := by
  intro statement listed
  obtain ⟨body, _, nodes, _, isMade⟩ := exists_of_mem_of_forall₂ made listed
  exact isMade.namespaceName_eq

/-- A sound draft becomes a well-formed mapper. -/
theorem IsSound.finish_isWellFormed {draft : Draft} (sound : draft.IsSound) {location : String}
    {depth : Nat} {mapper : Mapper} (finishes : draft.finish location depth = .ok mapper) :
    mapper.IsWellFormed location depth (draft.statements.map Prod.snd) := by
  have distinct : (mapper.statements.map Statement.id).Nodup := by
    rw [map_id_of_finish finishes]
    exact sound.distinct
  obtain ⟨namespaceName, fragments, made⟩ := forall₂_of_finish finishes
  have sources : ∀ entry ∈ draft.statements,
      Text.IsLabel entry.1.id ∧ HaveSoundTexts entry.2 := fun entry listed =>
    ⟨sound.labels _ (List.mem_map_of_mem listed), sound.statements entry.1 entry.2 listed⟩
  have statements : List.Forall₂
      (fun body statement => ∃ nodes,
        (draft.table location depth).expand body = .ok nodes ∧
          statement.IsMadeOf draft.namespaceName nodes)
      (draft.statements.map Prod.snd) mapper.statements := by
    rw [List.forall₂_map_left_iff]
    refine ((List.forall₂_and_left _ _).mpr ⟨sources, made⟩).imp fun entry statement makes => ?_
    obtain ⟨⟨label, texts⟩, nodes, expands, rfl⟩ := makes
    have expanded := FragmentTable.expand_isExpanded sound.fragments texts expands
    exact ⟨nodes, expands, StatementHead.statement_isMadeOf label expanded⟩
  have table : draft.table location depth =
      ⟨location, mapper.namespaceName, mapper.fragments, depth⟩ := by
    rw [table, namespaceName, fragments]
  rw [table, ← namespaceName] at statements
  refine ⟨namespaceName ▸ sound.namespaceName, distinct, statements, ?_⟩
  have same := namespaceName_of_forall₂ statements
  obtain ⟨registry, registers, equal⟩ := Registry.registerAll_empty same distinct
  refine ⟨registry, registers, congrArg List.length equal, fun statement listed => ?_⟩
  have key : statement.key = mapper.namespaceName ++ "." ++ statement.id := by
    rw [Statement.key, same statement listed, namespaceName]
    exact statementKey_of_ne sound.namespaceName.ne_empty statement.id
  rw [← key]
  exact Registry.get?_key (equal ▸ listed)

end Draft

/-! ## Mappers that are read -/

namespace Mapper

/-- **Every mapper that is read is well formed.** Whatever the bytes of a document are and however
deep references may go, the mapper that is read has a label for its namespace; its statements belong
to it, have labels as distinct identifiers, and are made of the nodes that are written in the
document, with all references replaced and all texts sound; and it can be registered as a whole,
each statement under its key. -/
theorem read_isWellFormed {location : String} {depth : Nat} {document : List UInt8}
    {mapper : Mapper} (reads : read location depth document = .ok mapper) :
    ∃ draft, (Reader.run location .prolog (Markup.events document)).1 = .ok draft ∧
      mapper.IsWellFormed location depth (draft.statements.map Prod.snd) := by
  obtain ⟨draft, finishes, becomes⟩ := bind_eq_ok_iff.mp reads
  have sound := Reader.run_prolog_isSound (Markup.events_opensFirst document) finishes
  exact ⟨draft, finishes, sound.finish_isWellFormed (mapError_eq_ok_iff.mp becomes)⟩

/-- A mapper with a fragment, a statement of fixed text that refers to it, and a statement with a
condition. -/
def accountsDocument : List UInt8 :=
  "<mapper namespace=' accounts '>
      <select id='byId'><include refid='rows'/> WHERE id = #{id}</select>
      <delete id=\"old\">DELETE FROM account <if test='all == nil'>WHERE age > ${age}</if></delete>
      <sql id='rows'>SELECT *
        FROM account</sql>
    </mapper>".toUTF8.data.toList

theorem read_isWellFormed_accounts :
    ∃ mapper, read memory defaultDepth accountsDocument = .ok mapper ∧
      ∃ draft, (Reader.run memory .prolog (Markup.events accountsDocument)).1 = .ok draft ∧
        mapper.IsWellFormed memory defaultDepth (draft.statements.map Prod.snd) := by
  have reads : (read memory defaultDepth accountsDocument).isOk = true := by decide +kernel
  cases result : read memory defaultDepth accountsDocument with
  | error cause =>
      rw [result] at reads
      cases reads
  | ok mapper => exact ⟨mapper, rfl, read_isWellFormed result⟩

end Mapper

end SqlTemplate
