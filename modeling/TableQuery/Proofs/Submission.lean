import TableQuery.Proofs.Assembly
import TableQuery.Proofs.MemberOrder

/-!
# Submitted requests say what was compiled

A request has no fields for some parts of an expression. Compilation leaves just
these parts blank, so the whole expression can be read back from the request
that is submitted. If the request lists the members of its maps in another
order, the expression that is read back differs in their order only.
-/

namespace TableQuery

/-! ## Parts that are submitted -/

namespace Expression

/-- The parts that the request of an operation has no field for are blank. -/
def Fits (expression : Expression) : Operation → Prop
  | .query => expression.key = .empty ∧ expression.update = none ∧
      expression.returnValues = none
  | .scan => expression.keyCondition = none ∧ expression.key = .empty ∧
      expression.update = none ∧ expression.returnValues = none
  | .update => expression.keyCondition = none ∧ expression.filter = none ∧
      expression.projection = none ∧ expression.startKey = .empty

/-- The binary64 numbers in the values of an expression. -/
def floats (expression : Expression) : List Binary64 :=
  Json.floatsOfMembers expression.key.entries ++
    Json.floatsOfMembers expression.values.entries ++
      Json.floatsOfMembers expression.startKey.entries

theorem readBack_floats (expression : Expression) :
    ReadBack expression.floats ↔
      (ReadBack (Json.floatsOfMembers expression.key.entries) ∧
        ReadBack (Json.floatsOfMembers expression.values.entries)) ∧
          ReadBack (Json.floatsOfMembers expression.startKey.entries) := by
  rw [floats, readBack_append, readBack_append]

end Expression

/-- A compiled expression fits the operation of its conditions. -/
theorem Compiles.fits
    {conditions : Conditions}
    {config : Config}
    {expression : Expression}
    (compiles : Compiles conditions config expression)
    {operation : Operation}
    (isOperation : conditions.operation = some operation) :
    expression.Fits operation := by
  have same : ∀ {compiled : Operation}, conditions.operation = some compiled →
      operation = compiled := by
    intro compiled isCompiled
    exact Option.some.inj (isOperation.symm.trans isCompiled)
  cases compiles with
  | scan found isScan _ _ =>
      obtain rfl := same (Conditions.operation_of_target found isScan)
      exact ⟨rfl, rfl, rfl, rfl⟩
  | query found isQuery _ _ _ =>
      obtain rfl := same (Conditions.operation_of_target found isQuery)
      exact ⟨rfl, rfl, rfl⟩
  | update found isUpdate _ _ _ _ =>
      obtain rfl := same (Conditions.operation_of_target found isUpdate)
      exact ⟨rfl, rfl, rfl, rfl⟩

/-! ## Reading requests back -/

/-- The expression of a query. -/
def QueryRequest.toExpression (request : QueryRequest) : Expression :=
  { Expression.ofTable request.tableName with
    keyCondition := request.keyCondition
    filter := request.filter
    projection := request.projection
    names := request.names
    values := request.values.toValues
    startKey := request.startKey.toValues }

/-- The expression of a scan. -/
def ScanRequest.toExpression (request : ScanRequest) : Expression :=
  { Expression.ofTable request.tableName with
    filter := request.filter
    projection := request.projection
    names := request.names
    values := request.values.toValues
    startKey := request.startKey.toValues }

/-- The expression of an update. -/
def UpdateRequest.toExpression (request : UpdateRequest) : Expression :=
  { Expression.ofTable request.tableName with
    key := request.key.toValues
    update := request.update
    names := request.names
    values := request.values.toValues
    returnValues := request.returnValues }

/-- The expression of a request, in which all parts are blank that the request
has no field for. A put has no expression. -/
def Request.toExpression? : Request → Option Expression
  | .query body => some body.toExpression
  | .scan body => some body.toExpression
  | .update body => some body.toExpression
  | .put _ => none

/-- An expression that fits an operation is read back from the request for
it. -/
theorem toExpression?_ofExpression
    {expression : Expression}
    {operation : Operation}
    (fits : expression.Fits operation)
    (readBack : ReadBack expression.floats) :
    (Request.ofExpression operation expression).toExpression? =
      some expression := by
  obtain ⟨⟨keyBack, valuesBack⟩, startKeyBack⟩ :=
    expression.readBack_floats.1 readBack
  have key := Item.toValues_ofValues expression.key keyBack
  have values := Item.toValues_ofValues expression.values valuesBack
  have startKey := Item.toValues_ofValues expression.startKey startKeyBack
  cases expression
  cases operation with
  | query =>
      obtain ⟨rfl, rfl, rfl⟩ := fits
      simp only [Request.ofExpression, Request.toExpression?,
        QueryRequest.ofExpression, QueryRequest.toExpression,
        Expression.ofTable, values, startKey]
  | scan =>
      obtain ⟨rfl, rfl, rfl, rfl⟩ := fits
      simp only [Request.ofExpression, Request.toExpression?,
        ScanRequest.ofExpression, ScanRequest.toExpression,
        Expression.ofTable, values, startKey]
  | update =>
      obtain ⟨rfl, rfl, rfl, rfl⟩ := fits
      simp only [Request.ofExpression, Request.toExpression?,
        UpdateRequest.ofExpression, UpdateRequest.toExpression,
        Expression.ofTable, key, values]

/-! ## Members in any order -/

/-- An item with the members of all maps in code point order. -/
def Item.sorted (item : Item) : Item := item.mapValues Attribute.sorted

theorem Item.toValues_sorted (item : Item) :
    item.sorted.toValues = item.toValues.mapValues Json.sorted := by
  simp only [toValues, sorted, SortedMap.mapValues_mapValues,
    Attribute.toDocument_sorted]

namespace Request

/-- A request with the members of all maps in code point order. -/
def sorted : Request → Request
  | query body => query { body with
      values := body.values.sorted
      startKey := body.startKey.sorted }
  | scan body => scan { body with
      values := body.values.sorted
      startKey := body.startKey.sorted }
  | update body => update { body with
      key := body.key.sorted
      values := body.values.sorted }
  | put body => put { body with item := body.item.sorted }

/-- Requests are the same up to the order of the members of maps. -/
def Alike (left right : Request) : Prop := left.sorted = right.sorted

end Request

namespace Expression

/-- An expression with the members of all objects in code point order. -/
def sorted (expression : Expression) : Expression :=
  { expression with
    key := expression.key.mapValues Json.sorted
    values := expression.values.mapValues Json.sorted
    startKey := expression.startKey.mapValues Json.sorted }

/-- Expressions are the same up to the order of the members of objects. -/
def Alike (left right : Expression) : Prop := left.sorted = right.sorted

end Expression

theorem toExpression?_sorted (request : Request) :
    request.sorted.toExpression? =
      request.toExpression?.map Expression.sorted := by
  cases request with
  | query body =>
      simp [Request.sorted, Request.toExpression?, QueryRequest.toExpression,
        Expression.sorted, Expression.ofTable, Item.toValues_sorted]
  | scan body =>
      simp [Request.sorted, Request.toExpression?, ScanRequest.toExpression,
        Expression.sorted, Expression.ofTable, Item.toValues_sorted]
  | update body =>
      simp [Request.sorted, Request.toExpression?, UpdateRequest.toExpression,
        Expression.sorted, Expression.ofTable, Item.toValues_sorted]
  | put body => rfl

/-- Nothing of a compiled expression is lost when it is submitted: it is read
back from the request, or up to the order of members from each request that is
the same up to that order. -/
theorem compile_submitted
    {conditions : Conditions}
    {config : Config}
    {expression : Expression}
    {operation : Operation}
    (isOperation : conditions.operation = some operation)
    (compiled : compile conditions config = .ok expression)
    (readBack : ReadBack expression.floats) :
    expression.Fits operation ∧
      (Request.ofExpression operation expression).toExpression? =
        some expression ∧
      ∀ request : Request,
        request.Alike (.ofExpression operation expression) →
          ∃ back, request.toExpression? = some back ∧
            back.Alike expression := by
  have fits := ((compile_eq_ok_iff _ _ _).1 compiled).fits isOperation
  have whole := toExpression?_ofExpression fits readBack
  refine ⟨fits, whole, ?_⟩
  intro request alike
  have sortedBack : request.toExpression?.map Expression.sorted =
      some expression.sorted := by
    rw [← toExpression?_sorted, alike, toExpression?_sorted, whole]
    rfl
  exact Option.map_eq_some_iff.1 sortedBack

/-- One half as a binary64 number. -/
def half : Binary64 := ⟨false, 0x10000000000000, 1021, by decide⟩

/-- A query for a nested value with a fraction, which goes on behind a key with
an integer. -/
def nestedQuery : Conditions :=
  let weight : Json := .number (.float half)
  let least : Json := .number (.int (-0x8000000000000000) (by decide))
  Conditions.start "Orders" .query
    |>.withCriterion "id" (.ofPrimary (.string "a"))
    |>.withCriterion "line" (.plain
      (.object [("weight", weight), ("tags", .array [.null, .bool true])]))
    |>.withLastEvaluatedKey (.ofList [("id", .string "a"), ("at", least)])

theorem compile_submitted_nestedQuery :
    ∃ expression, compile nestedQuery .default = .ok expression ∧
      expression.floats = [half] ∧ ReadBack [half] ∧
      expression.Fits .query ∧
      (Request.ofExpression .query expression).toExpression? =
        some expression ∧
      ∀ request : Request,
        request.Alike (.ofExpression .query expression) →
          ∃ back, request.toExpression? = some back ∧
            back.Alike expression := by
  have floats : (compile nestedQuery .default).toOption.map
      Expression.floats = some [half] := by
    decide +kernel
  have readBack : ReadBack [half] := by
    unfold ReadBack
    decide +kernel
  cases compiled : compile nestedQuery .default with
  | error cause =>
      rw [compiled] at floats
      cases floats
  | ok expression =>
      rw [compiled] at floats
      have only : expression.floats = [half] := Option.some.inj floats
      exact ⟨expression, rfl, only, readBack,
        compile_submitted rfl compiled (only ▸ readBack)⟩

end TableQuery
