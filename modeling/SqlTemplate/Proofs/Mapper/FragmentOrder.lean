import SqlTemplate.Proofs.Mapper.Around
import SqlTemplate.Proofs.Mapper.Child

/-!
# The order of fragments

Where a fragment stands among the children of a mapper matters to nobody.  The reader asks of the
fragments of a draft only which identifiers are taken (`Draft.rearranged_isHidden`), and a fragment
changes nothing else; so it may be read before another child or behind it, and both orders fail or
both succeed (`Child.read_swap`).  By induction it may be read before or behind any number of
children (`Child.readAll_swap`).

References are replaced when all fragments are known, and they look fragments up by their
identifiers.  So drafts with the same fragments in another order become mappers with the same
statements (`Draft.Rearranged.finish_related`).
-/

namespace SqlTemplate

set_option autoImplicit false

open Outcome

/-! ## Drafts with their fragments in another order -/

/-- Two drafts with the same statements and the same fragments, which may have been met in another
order. -/
structure Draft.Rearranged (left right : Draft) : Prop where
  namespaceName : left.namespaceName = right.namespaceName
  statements : left.statements = right.statements
  fragments : left.fragments.Perm right.fragments
  lookup (id : String) : left.fragments.lookup id = right.fragments.lookup id

namespace Draft

theorem Rearranged.refl (draft : Draft) : Rearranged draft draft :=
  ⟨rfl, rfl, .refl _, fun _ => rfl⟩

theorem Rearranged.trans {first second third : Draft} (before : Rearranged first second)
    (after : Rearranged second third) : Rearranged first third where
  namespaceName := before.namespaceName.trans after.namespaceName
  statements := before.statements.trans after.statements
  fragments := before.fragments.trans after.fragments
  lookup id := (before.lookup id).trans (after.lookup id)

/-- The reader does not tell such drafts apart. -/
theorem rearranged_isHidden : IsHidden Rearranged where
  namespaceName related := related.namespaceName
  hasStatement related := by
    funext id
    rw [hasStatement, hasStatement, related.statements]
  hasFragment related := by
    funext id
    exact related.fragments.any_eq
  addStatement related statement :=
    ⟨related.namespaceName, congrArg (· ++ [statement]) related.statements, related.fragments,
      related.lookup⟩
  addFragment related fragment := by
    refine ⟨related.namespaceName, related.statements, related.fragments.append_right _, ?_⟩
    intro id
    rw [List.lookup_append, List.lookup_append, related.lookup]

/-- Two fragments with identifiers of their own may be added in any order. -/
theorem rearranged_swap (draft : Draft) {first second : String × List Node}
    (other : first.1 ≠ second.1) :
    Rearranged { draft with fragments := draft.fragments ++ [first] ++ [second] }
      { draft with fragments := draft.fragments ++ [second] ++ [first] } := by
  refine ⟨rfl, rfl, ?_, fun id => ?_⟩
  · rw [List.append_assoc, List.append_assoc]
    exact .append_left _ (.swap ..)
  · have absent {fragment : String × List Node} (others : id ≠ fragment.1) :
        [fragment].lookup id = none :=
      List.lookup_eq_none_iff.mpr (List.forall_mem_singleton.mpr (bne_iff_ne.mpr others))
    simp only [List.lookup_append, Option.or_assoc]
    by_cases same : id = first.1
    · have others : id ≠ second.1 := fun equal => other (same.symm.trans equal)
      rw [absent others, Option.or_none, Option.none_or]
    · rw [absent same, Option.or_none, Option.none_or]

end Draft

/-! ## Fragments among other children -/

namespace Child

variable {fragment : Child}

/-- A child keeps drafts apart no more than they are. -/
theorem read_related {holds : Draft → Draft → Prop} (hidden : Draft.IsHidden holds)
    {left right : Draft} (related : holds left right) (child : Child) :
    Related Eq holds (child.read left) (child.read right) := by
  rw [read, read, Reader.target?_eq hidden related]
  refine .bind_same fun found _ => ?_
  cases found with
  | none => exact .result related
  | some target =>
      exact .bind_same fun nodes _ => Reader.store_related hidden related nodes target

theorem readAll_related {holds : Draft → Draft → Prop} (hidden : Draft.IsHidden holds)
    {left right : Draft} (related : holds left right) (children : List Child) :
    Related Eq holds (readAll children left) (readAll children right) := by
  induction children generalizing left right with
  | nil => exact .result related
  | cons child children ih =>
      exact (child.read_related hidden related).bind fun _ _ related => ih related

/-- A fragment is stored under its identifier, or it is faulty in every draft. -/
theorem read_fragment (isFragment : fragment.tag.text = "sql") :
    (∀ draft, ∃ fault, fragment.read draft = .error fault) ∨
      ∃ id nodes, ∀ draft, fragment.read draft = Reader.store draft nodes (.fragment id) := by
  have noStatement : StatementKind.ofTag? "sql" = none := by decide
  have target (draft : Draft) : Reader.target? draft fragment.tag =
      (requiredAttribute fragment.tag "id").map fun id => some (.fragment id) := by
    rw [Reader.target?, isFragment, noStatement]
    rfl
  cases named : requiredAttribute fragment.tag "id" with
  | error fault =>
      refine .inl fun draft => ⟨fault, ?_⟩
      rw [read, target, named]
      rfl
  | ok id =>
      cases body : fragment.body with
      | error fault =>
          refine .inl fun draft => ⟨fault, ?_⟩
          rw [read, target, named, body]
          rfl
      | ok nodes =>
          refine .inr ⟨id, nodes, fun draft => ?_⟩
          rw [read, target, named, body]
          rfl

/-- A child is faulty, or changes only the statements, or is stored as a fragment; which of these
does not depend on the fragments that the draft has. -/
theorem read_cases (child : Child) (namespaceName : String)
    (before : List (StatementHead × List Node)) :
    (∀ known, ∃ fault, child.read ⟨namespaceName, before, known⟩ = .error fault) ∨
      (∃ statements, ∀ known, child.read ⟨namespaceName, before, known⟩ =
        .ok ⟨namespaceName, statements, known⟩) ∨
      ∃ id nodes, ∀ known, child.read ⟨namespaceName, before, known⟩ =
        Reader.store ⟨namespaceName, before, known⟩ nodes (.fragment id) := by
  have target (known : List (String × List Node)) :
      Reader.target? ⟨namespaceName, before, known⟩ child.tag =
        Reader.target? ⟨namespaceName, before, []⟩ child.tag := rfl
  cases found : Reader.target? ⟨namespaceName, before, []⟩ child.tag with
  | error fault =>
      refine .inl fun known => ⟨fault, ?_⟩
      rw [read, target, found]
      rfl
  | ok found? =>
      cases found? with
      | none =>
          refine .inr (.inl ⟨before, fun known => ?_⟩)
          rw [read, target, found]
          rfl
      | some goal =>
          cases body : child.body with
          | error fault =>
              refine .inl fun known => ⟨fault, ?_⟩
              rw [read, target, found, body]
              rfl
          | ok nodes =>
              cases goal with
              | statement head =>
                  refine .inr (.inl ⟨before ++ [(head, nodes)], fun known => ?_⟩)
                  rw [read, target, found, body]
                  rfl
              | fragment id =>
                  refine .inr (.inr ⟨id, nodes, fun known => ?_⟩)
                  rw [read, target, found, body]
                  rfl

/-- Whether two fragments cannot both be added to a draft. -/
def Clash (draft : Draft) (id other : String) : Prop :=
  draft.hasFragment id = true ∨ draft.hasFragment other = true ∨ id = other

/-- Storing two fragments fails if they clash, and adds both if they do not. -/
theorem store_both (draft : Draft) (id other : String) (nodes others : List Node) :
    (Clash draft id other → ∃ fault, (Reader.store draft nodes (.fragment id) >>= fun draft =>
        Reader.store draft others (.fragment other)) = .error fault) ∧
      (¬ Clash draft id other → (Reader.store draft nodes (.fragment id) >>= fun draft =>
          Reader.store draft others (.fragment other)) =
        .ok { draft with fragments := draft.fragments ++ [(id, nodes)] ++ [(other, others)] }) := by
  have taken :
      ({ draft with fragments := draft.fragments ++ [(id, nodes)] } : Draft).hasFragment other =
        (draft.hasFragment other || id == other) := by
    simp [Draft.hasFragment, List.any_append]
  unfold Clash
  by_cases hasFirst : draft.hasFragment id = true
  · rw [Reader.store, if_pos hasFirst]
    exact ⟨fun _ => ⟨_, rfl⟩, fun free => absurd (.inl hasFirst) free⟩
  · rw [Reader.store, if_neg hasFirst]
    show (_ → ∃ fault, Reader.store _ others (.fragment other) = .error fault) ∧
      (_ → Reader.store _ others (.fragment other) = _)
    rw [Reader.store, taken]
    by_cases clash : draft.hasFragment other = true ∨ id = other
    · have second : (draft.hasFragment other || id == other) = true := by
        simpa using clash
      rw [if_pos second]
      exact ⟨fun _ => ⟨_, rfl⟩, fun free => absurd (.inr clash) free⟩
    · have second : ¬(draft.hasFragment other || id == other) = true := by
        simpa using clash
      rw [if_neg second]
      exact ⟨fun any => absurd any (not_or.mpr ⟨hasFirst, clash⟩), fun _ => rfl⟩

/-- Two fragments are stored in any order, or not at all. -/
theorem store_swap (draft : Draft) (id other : String) (nodes others : List Node) :
    Related (fun _ _ => True) Draft.Rearranged
      (Reader.store draft nodes (.fragment id) >>= fun draft =>
        Reader.store draft others (.fragment other))
      (Reader.store draft others (.fragment other) >>= fun draft =>
        Reader.store draft nodes (.fragment id)) := by
  have ⟨firstFails, firstAdds⟩ := store_both draft id other nodes others
  have ⟨secondFails, secondAdds⟩ := store_both draft other id others nodes
  have symmetric : Clash draft other id ↔ Clash draft id other := by
    rw [Clash, Clash, eq_comm]
    tauto
  by_cases clash : Clash draft id other
  · obtain ⟨_, first⟩ := firstFails clash
    obtain ⟨_, second⟩ := secondFails (symmetric.mpr clash)
    rw [first, second]
    exact .fault trivial
  · rw [firstAdds clash, secondAdds (mt symmetric.mp clash)]
    exact .result (draft.rearranged_swap fun same => clash (.inr (.inr same)))

/-- Steps that fail with every result fail in any case. -/
theorem bind_fails (outcome : Except LoadError Draft) {next : Draft → Except LoadError Draft}
    (always : ∀ draft, ∃ fault, next draft = .error fault) :
    ∃ fault, outcome >>= next = .error fault := by
  cases outcome with
  | error fault => exact ⟨fault, rfl⟩
  | ok draft => exact always draft

/-- Storing a fragment changes the fragments of a draft, or fails; the statements do not matter. -/
theorem store_cases (namespaceName : String) (known : List (String × List Node))
    (nodes : List Node) (id : String) :
    (∃ fault, ∀ before,
      Reader.store ⟨namespaceName, before, known⟩ nodes (.fragment id) = .error fault) ∨
      ∃ fragments, ∀ before,
        Reader.store ⟨namespaceName, before, known⟩ nodes (.fragment id) =
          .ok ⟨namespaceName, before, fragments⟩ := by
  by_cases taken : Draft.hasFragment ⟨namespaceName, [], known⟩ id = true
  · exact .inl ⟨.config (.duplicateFragment (statementKey namespaceName id)),
      fun _ => if_pos taken⟩
  · exact .inr ⟨known ++ [(id, nodes)], fun _ => if_neg taken⟩

/-- A fragment may be read before a child or behind it. -/
theorem read_swap (isFragment : fragment.tag.text = "sql") (child : Child) (draft : Draft) :
    Related (fun _ _ => True) Draft.Rearranged (fragment.read draft >>= child.read)
      (child.read draft >>= fragment.read) := by
  rcases read_fragment isFragment with always | ⟨id, nodes, stores⟩
  · obtain ⟨_, here⟩ := always draft
    obtain ⟨_, behind⟩ := bind_fails (child.read draft) always
    rw [here, behind]
    exact .fault trivial
  rw [stores, funext stores]
  obtain ⟨namespaceName, before, known⟩ := draft
  have storing := store_cases namespaceName known nodes id
  rcases read_cases child namespaceName before with
    always | ⟨statements, changes⟩ | ⟨other, others, storesOther⟩
  · obtain ⟨_, fails⟩ := always known
    rw [fails]
    rcases storing with ⟨_, clashes⟩ | ⟨fragments, adds⟩
    · rw [clashes]
      exact .fault trivial
    · obtain ⟨_, failsLater⟩ := always fragments
      rw [adds]
      show Related _ _ (child.read _) _
      rw [failsLater]
      exact .fault trivial
  · rw [changes]
    show Related _ _ _ (Reader.store _ nodes (.fragment id))
    rcases storing with ⟨_, clashes⟩ | ⟨fragments, adds⟩
    · rw [clashes, clashes]
      exact .fault trivial
    · rw [adds, adds]
      show Related _ _ (child.read _) _
      rw [changes]
      exact .result (.refl _)
  · have onward : (Reader.store ⟨namespaceName, before, known⟩ nodes (.fragment id) >>=
        child.read) =
        Reader.store ⟨namespaceName, before, known⟩ nodes (.fragment id) >>= fun draft =>
          Reader.store draft others (.fragment other) := by
      rcases storing with ⟨_, clashes⟩ | ⟨fragments, adds⟩
      · rw [clashes]
        rfl
      · rw [adds]
        exact storesOther fragments
    rw [onward, storesOther]
    exact store_swap _ id other nodes others

/-- A fragment may be read before children or behind them. -/
theorem readAll_swap (isFragment : fragment.tag.text = "sql") (children : List Child)
    (draft : Draft) :
    Related (fun _ _ => True) Draft.Rearranged (fragment.read draft >>= readAll children)
      (readAll children draft >>= fragment.read) := by
  induction children generalizing draft with
  | nil =>
      have nothing : fragment.read draft >>= readAll [] = fragment.read draft := bind_pure _
      rw [nothing]
      exact .refl (fun _ => trivial) .refl _
  | cons child children ih =>
      -- The fragment goes behind the first child, and behind the others by induction.
      have first : Related (fun _ _ => True) Draft.Rearranged
          (fragment.read draft >>= child.read >>= readAll children)
          (child.read draft >>= fragment.read >>= readAll children) :=
        (read_swap isFragment child draft).bind fun _ _ related =>
          (readAll_related Draft.rearranged_isHidden related children).imp fun _ _ _ => trivial
      have same : Related (fun _ _ => True) Eq (child.read draft) (child.read draft) :=
        .refl (fun _ => trivial) (fun _ => rfl) _
      have others : Related (fun _ _ => True) Draft.Rearranged
          (child.read draft >>= fun draft => fragment.read draft >>= readAll children)
          (child.read draft >>= fun draft => readAll children draft >>= fragment.read) :=
        same.bind_eq ih
      rw [bind_assoc, bind_assoc] at first
      rw [readAll, bind_assoc]
      exact first.trans (fun _ _ => trivial) Draft.Rearranged.trans others

end Child

/-! ## Finished mappers -/

/-- Two mappers with the same statements, and with the same fragments under the same identifiers,
which may have been met in another order. -/
structure Mapper.Rearranged (left right : Mapper) : Prop where
  namespaceName : left.namespaceName = right.namespaceName
  statements : left.statements = right.statements
  fragments : left.fragments.Perm right.fragments
  lookup (id : String) : left.fragments.lookup id = right.fragments.lookup id

theorem Mapper.Rearranged.refl (mapper : Mapper) : Rearranged mapper mapper :=
  ⟨rfl, rfl, .refl _, fun _ => rfl⟩

theorem Mapper.Rearranged.symm {left right : Mapper} (related : Rearranged left right) :
    Rearranged right left where
  namespaceName := related.namespaceName.symm
  statements := related.statements.symm
  fragments := related.fragments.symm
  lookup id := (related.lookup id).symm

theorem Mapper.Rearranged.trans {first second third : Mapper} (before : Rearranged first second)
    (after : Rearranged second third) : Rearranged first third where
  namespaceName := before.namespaceName.trans after.namespaceName
  statements := before.statements.trans after.statements
  fragments := before.fragments.trans after.fragments
  lookup id := (before.lookup id).trans (after.lookup id)

namespace Draft.Rearranged

variable {left right : Draft}

/-- References stand for the same nodes. -/
theorem resolve_eq (related : Rearranged left right) (location : String) (depth remaining : Nat) :
    (left.table location depth).resolve remaining =
      (right.table location depth).resolve remaining := by
  have local? (reference : String) : (left.table location depth).localName reference =
      (right.table location depth).localName reference := by
    rw [FragmentTable.localName, FragmentTable.localName, table, table, related.namespaceName]
  have get? (reference : String) : (left.table location depth).get? reference =
      (right.table location depth).get? reference := by
    rw [FragmentTable.get?, FragmentTable.get?, local?]
    exact related.lookup _
  have unknown (reference : String) : (left.table location depth).unknown reference =
      (right.table location depth).unknown reference := by
    rw [FragmentTable.unknown, FragmentTable.unknown, table, table, related.namespaceName]
  funext reference
  induction remaining generalizing reference with
  | zero =>
      rw [FragmentTable.resolve, FragmentTable.resolve, get?, unknown]
      rfl
  | succ remaining ih =>
      rw [FragmentTable.resolve, FragmentTable.resolve, get?, unknown, funext ih]

/-- The drafts become mappers with the same statements. -/
theorem finish_related (related : Rearranged left right) (location : String) (depth : Nat) :
    Related Eq Mapper.Rearranged (left.finish location depth) (right.finish location depth) := by
  have expand (nodes : List Node) : (left.table location depth).expand nodes =
      (right.table location depth).expand nodes := by
    rw [FragmentTable.expand, FragmentTable.expand, related.resolve_eq]
    rfl
  simp only [finish, expand, related.namespaceName, related.statements]
  exact .bind_same fun statements _ =>
    .result ⟨rfl, rfl, related.fragments, related.lookup⟩

end Draft.Rearranged

end SqlTemplate
