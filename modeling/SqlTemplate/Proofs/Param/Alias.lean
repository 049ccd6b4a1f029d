import SqlTemplate.Proofs.Outcome
import SqlTemplate.Proofs.Param.Mention
import SqlTemplate.Proofs.Param.PathText

/-!
# Names that stand for places in a collection

A loop over an array binds the item at hand under one name and its position under another.  Both
give other ways to write the item: as the name of the item, as the collection at the named position,
and, outside of the loop as well, as the collection at the position in digits.  **All three have the
same value, whatever path goes on from there** (`Scope.resolve_alias`).

A path is read from the front and each step goes down from the value reached so far
(`Scope.value?_followedBy`), so it is enough to compare how far the three fronts lead.  The names of
the loop must hide no name that the path of the collection or the rest reads.
-/

namespace SqlTemplate

set_option autoImplicit false

open Outcome

namespace Scope

/-! ## Steps behind steps -/

theorem steps?_append (scope : Scope) (value : Value) (front behind : List Segment) :
    scope.steps? value (front ++ behind) =
      (scope.steps? value front).bind fun next => scope.steps? next behind := by
  induction front generalizing value with
  | nil => rfl
  | cons segment front ih =>
      rw [List.cons_append, steps?, steps?, Option.bind_assoc]
      exact congrArg _ (funext ih)

/-- More steps go down from the value of a path. -/
theorem value?_followedBy (scope : Scope) (path : Path) (more : List Segment) :
    scope.value? (path.followedBy more) =
      (scope.value? path).bind fun value => scope.steps? value more := by
  rw [value?, value?, Path.followedBy, Option.bind_assoc]
  exact congrArg _ (funext fun value => scope.steps?_append value path.segments more)

/-! ## Names bound in a loop -/

/-- The scope of a loop inside of another scope, with an item and its index bound. -/
def within (scope : Scope) (item index : String) (value key : Value) : Scope :=
  (scope.nested.bindItem item value).bindIndex index key

variable {scope : Scope} {item index : String} {value key : Value}

theorem lookup_singleton (name bound : String) (value : Value) :
    [(bound, value)].lookup name = if name = bound then some value else none := by
  by_cases same : name = bound
  · rw [same, List.lookup_cons_self, if_pos rfl]
  · rw [List.lookup_cons, beq_eq_false_iff_ne.mpr same, if_neg same]
    rfl

/-- The names of a loop hide what else is bound under them, and the item goes before the index. -/
theorem get?_within (name : String) :
    (scope.within item index value key).get? name =
      if name = item then some value else if name = index then some key else scope.get? name := by
  have bound : (scope.within item index value key).inner.get? name =
      (if name = item then some value else none).or (if name = index then some key else none) := by
    rw [← lookup_singleton, ← lookup_singleton]
    rfl
  rw [get?, List.findSome?_cons, bound]
  by_cases isItem : name = item
  · rw [if_pos isItem, if_pos isItem]
    rfl
  · by_cases isIndex : name = index
    · rw [if_neg isItem, if_neg isItem, if_pos isIndex, if_pos isIndex]
      rfl
    · rw [if_neg isItem, if_neg isItem, if_neg isIndex, if_neg isIndex]
      rfl

/-- Other names mean in a loop what they mean around it. -/
theorem get?_within_of_ne {name : String} (notItem : name ≠ item) (notIndex : name ≠ index) :
    (scope.within item index value key).get? name = scope.get? name := by
  rw [get?_within, if_neg notItem, if_neg notIndex]

/-- A path that reads no name of a loop has the same value in it as around it. -/
theorem value?_within {path : Path}
    (unread : ∀ name ∈ path.names, name ≠ item ∧ name ≠ index) :
    (scope.within item index value key).value? path = scope.value? path := by
  apply value?_congr
  intro name named
  exact get?_within_of_ne (unread name named).1 (unread name named).2

/-- Steps that read no name of a loop lead to the same value in it as around it. -/
theorem steps?_within {segments : List Segment}
    (unread : ∀ name ∈ segments.filterMap Segment.name?, name ≠ item ∧ name ≠ index)
    (start : Value) :
    (scope.within item index value key).steps? start segments = scope.steps? start segments := by
  apply steps?_congr
  intro name named
  exact get?_within_of_ne (unread name named).1 (unread name named).2

/-! ## Three ways to write an item -/

/-- A position between brackets goes from an array to the item there. -/
theorem resolve_item {text : String} {front : Path} {items : List Value} {place : Position}
    {position : Nat} {more : List Segment}
    (reads : Path.ofString? text = .ok (front.followedBy (.item place :: more)))
    (found : scope.value? front = some (.array items))
    (stands : scope.position? place = some position) (placed : items[position]? = some value) :
    scope.resolve text = .ok (scope.steps? value more) := by
  have here : scope.step? (.array items) (.item place) = some value := by
    rw [step?, stands]
    exact placed
  rw [resolve, reads]
  show Except.ok (scope.value? _) = _
  rw [value?_followedBy, found, Option.bind_some, steps?, here, Option.bind_some]

/-- **The names of a loop are other names for the places in its collection.** In the scope of a
loop, with an item and its position bound, a path that starts at the name of the item has the value
that it has when it starts at the collection at the named position, and the value that it has around
the loop when it starts at the collection at the position in digits. -/
theorem resolve_alias {collection rest : String} {items : List Value} {position : Nat}
    {path : Path} (untrimmed : Text.trimmed collection = collection)
    (resolves : scope.resolve collection = .ok (some (.array items)))
    (fits : items.length ≤ Path.positionBound) (placed : items[position]? = some value)
    (itemNamed : Text.isName item.toList = true) (indexNamed : Text.isName index.toList = true)
    (different : index ≠ item)
    (unmentioned : ¬ Path.Mentions collection item ∧ ¬ Path.Mentions collection index)
    (continues : Path.Continues rest.toList)
    (reads : Path.ofString? (item ++ rest) = .ok path)
    (unused : ∀ name ∈ path.segments.filterMap Segment.name?, name ≠ item ∧ name ≠ index) :
    ∃ result,
      (scope.within item index value (.ofNat position)).resolve (item ++ rest) = .ok result ∧
        (scope.within item index value (.ofNat position)).resolve
            (collection ++ "[" ++ index ++ "]" ++ rest) = .ok result ∧
          scope.resolve (collection ++ "[" ++ toString position ++ "]" ++ rest) = .ok result := by
  obtain ⟨front, frontReads, found⟩ := map_eq_ok_iff.mp resolves
  obtain ⟨more, steps, rfl⟩ := Path.exists_steps itemNamed continues reads
  have kept : Text.trim collection.toList = collection.toList := by
    have same := congrArg String.toList untrimmed
    rwa [Text.trimmed, String.toList_ofList] at same
  -- Neither the path of the collection nor the rest reads a name that the loop binds.
  have unread : ∀ name ∈ front.names, name ≠ item ∧ name ≠ index := by
    intro name named
    constructor
    · rintro rfl
      exact unmentioned.1 ⟨front, frontReads, named⟩
    · rintro rfl
      exact unmentioned.2 ⟨front, frontReads, named⟩
  have goesOn : (scope.within item index value (.ofNat position)).steps? value more =
      scope.steps? value more := steps?_within unused value
  have bounded : position < Path.positionBound := by
    have inside := (List.getElem?_eq_some_iff.mp placed).1
    omega
  refine ⟨scope.steps? value more, ?_, ?_, ?_⟩
  · have bound : (scope.within item index value (.ofNat position)).get? item = some value := by
      rw [get?_within, if_pos rfl]
    rw [resolve, reads]
    show Except.ok _ = _
    rw [value?_followedBy, value?, bound, Option.bind_some, steps?, Option.bind_some, goesOn]
  · have named := Path.ofString?_item kept frontReads (Path.not_mem_name indexNamed)
      (Path.position?_name indexNamed) continues steps
    have stands : (scope.within item index value (.ofNat position)).get? index =
        some (.ofNat position) := by
      rw [get?_within, if_neg different, if_pos rfl]
    rw [← goesOn]
    refine resolve_item named ((value?_within unread).trans found) ?_ placed
    rw [position?, String.ofList_toList, stands]
    rfl
  · have fixed := Path.ofString?_item kept frontReads (Path.not_mem_toString position)
      (Path.position?_toString position bounded) continues steps
    exact resolve_item fixed found rfl placed

/-- A line of an order. -/
def orderLine (prices : List Value) : Value := .object [("prices", .array prices)]

/-- The lines of an order with two lines. -/
def orderLines : List Value := [orderLine [.ofNat 3], orderLine [.ofNat 5, .ofNat 8]]

def orderScope : Scope := .root (.named [("order", .object [("lines", .array orderLines)])])

/-- The scope of a loop over the lines of the order, at its second line. -/
def orderLineScope : Scope :=
  orderScope.within "line" "i" (orderLine [.ofNat 5, .ofNat 8]) (.ofNat 1)

theorem resolve_alias_orderLine :
    orderScope.resolve "order.lines" = .ok (some (.array orderLines)) ∧
      ∃ result, orderLineScope.resolve ("line" ++ ".prices[0]") = .ok result ∧
        orderLineScope.resolve ("order.lines" ++ "[" ++ "i" ++ "]" ++ ".prices[0]") = .ok result ∧
          orderScope.resolve ("order.lines" ++ "[" ++ toString 1 ++ "]" ++ ".prices[0]") =
            .ok result := by
  have lines : Path.ofString? "order.lines" = .ok ⟨"order", [.key "lines"]⟩ := by decide +kernel
  have resolves : orderScope.resolve "order.lines" = .ok (some (.array orderLines)) := by
    rw [resolve, lines]
    rfl
  have reads : Path.ofString? ("line" ++ ".prices[0]") =
      .ok ⟨"line", [.key "prices", .item (.fixed 0)]⟩ := by decide +kernel
  have continues : Path.Continues ".prices[0]".toList := .cons (by decide)
  refine ⟨resolves, resolve_alias ?_ resolves ?_ rfl ?_ ?_ ?_ ?_ continues reads ?_⟩ <;>
    decide +kernel

end Scope

end SqlTemplate
