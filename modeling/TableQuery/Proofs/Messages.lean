import TableQuery.Proofs.Submission
import TableQuery.Proofs.TaggedForm
import TableQuery.Response

/-!
# Messages are read back

Expressions, requests and responses are written as objects that leave out what
is empty. Reading such an object puts back what was left out, so nothing is lost
on the way. The members of all objects may be listed in another order on the
way, and nothing but this order changes then.
-/

namespace TableQuery

variable {α ρ : Type}

open Json

/-- A record is read back from what is written of it. -/
structure Json.Record.Restores
    (record : Record ρ)
    (write : ρ → Json)
    (sort : ρ → ρ) : Prop where
  /-- Everything is read back as it was written. -/
  restored : ∀ data, record.decoder.ofJson (write data) = .ok data
  /-- The required members are always written. -/
  required : ∀ data, ∀ field ∈ record.fields, field.presence = .required →
    ∃ value, (write data).member? field.name = some value
  /-- Members are read in any order, and nothing but their order changes. -/
  inAnyOrder : ∀ data value, (write data).Distinct → value.Distinct →
    value.Alike (write data) → ∃ read, record.decoder.ofJson value = .ok read ∧
      sort read = sort data

namespace Json.Record

variable {record : Record ρ}

/-- What is read back member by member is read back in any order if the record is
unordered. -/
theorem Restores.of_unordered
    {sort : ρ → ρ}
    (unordered : record.Unordered sort)
    {write : ρ → List (String × Json)}
    (put : ∀ data, record.putMembers (write data) record.blank = .ok data)
    (given : ∀ data, ∀ field ∈ record.fields, field.presence = .required →
      field.name ∈ Members.names (write data)) :
    record.Restores (fun data => .object (write data)) sort := by
  have restored (data : ρ) :
      record.decoder.ofJson (.object (write data)) = .ok data :=
    ofJson_object_eq_ok_iff.2
      ⟨put data, checkPresence_eq_ok_iff.2 (given data)⟩
  refine ⟨restored, ?_, ?_⟩
  · intro data field declared isRequired
    have present := given data field declared isRequired
    rw [← Members.lookup_isSome_iff] at present
    exact Option.isSome_iff_exists.1 present
  · intro data value distinct distinctValue alike
    -- Both documents have the same sorted form, which is read as sorted data.
    have sorted := (unordered.decoder _ distinct (sort data)).2
      ⟨data, restored data, rfl⟩
    rw [← alike] at sorted
    exact (unordered.decoder value distinctValue (sort data)).1 sorted

/-! ## Members of messages -/

variable (record)

/-- A map that is left out if it is empty is read back. -/
theorem putMembers_mapMember
    (name : String)
    (decoder : Decoder α)
    (put : SortedMap α → ρ → ρ)
    {presence : Presence}
    (isField : record.field? name =
      some (.of name presence decoder.sortedMap put))
    {write : α → Json}
    (back : ∀ value, decoder.ofJson (write value) = .ok value)
    (map : SortedMap α)
    (read : ρ)
    (blank : put .empty read = read) :
    record.putMembers (mapMember name write map) read = .ok (put map read) := by
  rw [mapMember]
  split
  · next isEmpty =>
      rw [map.isEmpty_iff.1 isEmpty, blank, putMembers]
  · exact record.putMembers_member name decoder.sortedMap put isField
      (Decoder.sortedMap_ofJson write map back) read

/-- A text that is left out if there is none is read back. -/
theorem putMembers_text
    (name : String)
    (put : Option String → ρ → ρ)
    {presence : Presence}
    (isField : record.field? name =
      some (.of name presence Decoder.string.option put))
    (text : Option String)
    (read : ρ)
    (blank : put none read = read) :
    record.putMembers (optionalMember name (text.map .string)) read =
      .ok (put text read) := by
  have put := record.putMembers_optionalMember name Decoder.string put isField
    (fun content (_ : text = some content) =>
      (rfl : Decoder.string.option.ofJson (.string content) = _)) read blank
  rwa [Option.map_id'] at put

/-- An option that is left out if there is none is read back. -/
theorem putMembers_returnValues
    (name : String)
    (put : Option ReturnValues → ρ → ρ)
    {presence : Presence}
    (isField : record.field? name =
      some (.of name presence ReturnValues.decoder.option put))
    (option : Option ReturnValues)
    (read : ρ)
    (blank : put none read = read) :
    record.putMembers
        (optionalMember name (option.map ReturnValues.toJson)) read =
      .ok (put option read) := by
  have put := record.putMembers_optionalMember name ReturnValues.decoder put
    isField (fun content (_ : option = some content) =>
      Decoder.option_ofJson Json.noConfusion content.decoder_toJson) read blank
  rwa [Option.map_id'] at put

theorem putMembers_names
    (name : String)
    (put : SortedMap String → ρ → ρ)
    {presence : Presence}
    (isField : record.field? name =
      some (.of name presence Decoder.string.sortedMap put))
    (names : SortedMap String)
    (read : ρ)
    (blank : put .empty read = read) :
    record.putMembers (mapMember name .string names) read =
      .ok (put names read) :=
  record.putMembers_mapMember name .string put isField (fun _ => rfl) names read
    blank

theorem putMembers_documents
    (name : String)
    (put : SortedMap Json → ρ → ρ)
    {presence : Presence}
    (isField : record.field? name =
      some (.of name presence Decoder.json.sortedMap put))
    (documents : SortedMap Json)
    (read : ρ)
    (blank : put .empty read = read) :
    record.putMembers (mapMember name id documents) read =
      .ok (put documents read) :=
  record.putMembers_mapMember name .json put isField (fun _ => rfl) documents
    read blank

theorem putMembers_item
    (name : String)
    (put : Item → ρ → ρ)
    {presence : Presence}
    (isField : record.field? name = some (.of name presence Item.decoder put))
    (item : Item)
    (read : ρ)
    (blank : put .empty read = read) :
    record.putMembers (mapMember name Attribute.toJson item) read =
      .ok (put item read) :=
  record.putMembers_mapMember name Attribute.decoder put isField
    Attribute.ofJson_toJson item read blank

end Json.Record

/-! ## Parts of messages -/

theorem Item.decoder_toJson (item : Item) :
    decoder.ofJson item.toJson = .ok item :=
  Decoder.sortedMap_ofJson Attribute.toJson item Attribute.ofJson_toJson

theorem Json.Decoder.int32_ofJson (value : Int32) :
    Decoder.int32.ofJson (.number (.ofInt32 value)) = .ok value := by
  have least : Int32.minValue.toInt = -0x80000000 := by decide
  have largest : Int32.maxValue.toInt = 0x7fffffff := by decide
  have below := value.toInt_lt
  have above := value.le_toInt
  refine map_eq_ok_iff.2 ⟨value.toInt, ?_, Int32.ofInt_toInt value⟩
  exact Decoder.intBetween_ofJson _ (by omega) (by omega)

/-! ## Unordered parts -/

namespace Json.Decoder

theorem string_unordered : Decoder.string.Unordered id := .scalar _

theorem text_unordered : Decoder.string.option.Unordered id := by
  have unordered := string_unordered.option
  rwa [Option.map_id] at unordered

theorem names_unordered : Decoder.string.sortedMap.Unordered id := by
  have unordered := string_unordered.sortedMap
  rwa [SortedMap.mapValues_id] at unordered

theorem int32_unordered : Decoder.int32.Unordered id :=
  Unordered.map (.scalar _) fun _ => rfl

theorem documents_unordered :
    Decoder.json.sortedMap.Unordered (SortedMap.mapValues Json.sorted) :=
  Unordered.json.sortedMap

end Json.Decoder

theorem ReturnValues.option_unordered :
    ReturnValues.decoder.option.Unordered id := by
  have unordered := (Decoder.Unordered.choice choices).option
  rwa [Option.map_id] at unordered

theorem Item.decoder_unordered : Item.decoder.Unordered Item.sorted :=
  Attribute.decoder_unordered.sortedMap

/-! ## Expressions -/

namespace Expression

theorem unordered : record.Unordered sorted where
  blank := rfl
  fields := by
    simp only [record, List.forall_mem_cons]
    exact ⟨Decoder.string_unordered.field fun _ _ => rfl,
      Decoder.text_unordered.field fun _ _ => rfl,
      Decoder.text_unordered.field fun _ _ => rfl,
      Decoder.text_unordered.field fun _ _ => rfl,
      Decoder.documents_unordered.field fun _ _ => rfl,
      Decoder.text_unordered.field fun _ _ => rfl,
      Decoder.names_unordered.field fun _ _ => rfl,
      Decoder.documents_unordered.field fun _ _ => rfl,
      ReturnValues.option_unordered.field fun _ _ => rfl,
      Decoder.documents_unordered.field fun _ _ => rfl, List.forall_mem_nil _⟩
  commutes := by simp [record, Field.commutes_of]

theorem restores : record.Restores toJson sorted := by
  refine .of_unordered unordered (fun expression => ?_) fun expression => ?_
  · have tableName := record.putMembers_member "TableName" .string _ rfl
      (rfl : Decoder.string.ofJson (.string expression.tableName) = .ok _)
      record.blank
    have keyCondition := Record.putMembers_append_eq_ok tableName
      (record.putMembers_text "KeyConditionExpression" _ rfl
        expression.keyCondition _ rfl)
    have filter := Record.putMembers_append_eq_ok keyCondition
      (record.putMembers_text "FilterExpression" _ rfl expression.filter _ rfl)
    have projection := Record.putMembers_append_eq_ok filter
      (record.putMembers_text "ProjectionExpression" _ rfl
        expression.projection _ rfl)
    have key := Record.putMembers_append_eq_ok projection
      (record.putMembers_documents "Key" _ rfl expression.key _ rfl)
    have update := Record.putMembers_append_eq_ok key
      (record.putMembers_text "UpdateExpression" _ rfl expression.update _ rfl)
    have names := Record.putMembers_append_eq_ok update
      (record.putMembers_names "ExpressionAttributeNames" _ rfl
        expression.names _ rfl)
    have values := Record.putMembers_append_eq_ok names
      (record.putMembers_documents "ExpressionAttributeValues" _ rfl
        expression.values _ rfl)
    have returnValues := Record.putMembers_append_eq_ok values
      (record.putMembers_returnValues "ReturnValues" _ rfl
        expression.returnValues _ rfl)
    exact Record.putMembers_append_eq_ok returnValues
      (record.putMembers_documents "ExclusiveStartKey" _ rfl
        expression.startKey _ rfl)
  · simp [record, Field.of, Members.names]

end Expression

/-! ## Requests -/

namespace PutRequest

/-- A request with the members of all maps in code point order. -/
def sorted (request : PutRequest) : PutRequest :=
  { request with item := request.item.sorted }

theorem unordered : record.Unordered sorted where
  blank := rfl
  fields := by
    simp only [record, List.forall_mem_cons]
    exact ⟨Decoder.string_unordered.field fun _ _ => rfl,
      Item.decoder_unordered.field fun _ _ => rfl,
      ReturnValues.option_unordered.field fun _ _ => rfl,
      List.forall_mem_nil _⟩
  commutes := by simp [record, Field.commutes_of]

theorem restores : record.Restores toJson sorted := by
  refine .of_unordered unordered (fun request => ?_) fun request => ?_
  · have tableName := record.putMembers_member "TableName" .string _ rfl
      (rfl : Decoder.string.ofJson (.string request.tableName) = .ok _)
      record.blank
    have item := Record.putMembers_append_eq_ok tableName
      (record.putMembers_member "Item" Item.decoder _ rfl
        request.item.decoder_toJson _)
    exact Record.putMembers_append_eq_ok item
      (record.putMembers_returnValues "ReturnValues" _ rfl
        request.returnValues _ rfl)
  · simp [record, Field.of, Members.names]

end PutRequest

namespace UpdateRequest

/-- A request with the members of all maps in code point order. -/
def sorted (request : UpdateRequest) : UpdateRequest :=
  { request with
    key := request.key.sorted
    values := request.values.sorted }

theorem unordered : record.Unordered sorted where
  blank := rfl
  fields := by
    simp only [record, List.forall_mem_cons]
    exact ⟨Decoder.string_unordered.field fun _ _ => rfl,
      Item.decoder_unordered.field fun _ _ => rfl,
      Decoder.text_unordered.field fun _ _ => rfl,
      Decoder.names_unordered.field fun _ _ => rfl,
      Item.decoder_unordered.field fun _ _ => rfl,
      ReturnValues.option_unordered.field fun _ _ => rfl,
      List.forall_mem_nil _⟩
  commutes := by simp [record, Field.commutes_of]

theorem restores : record.Restores toJson sorted := by
  refine .of_unordered unordered (fun request => ?_) fun request => ?_
  · have tableName := record.putMembers_member "TableName" .string _ rfl
      (rfl : Decoder.string.ofJson (.string request.tableName) = .ok _)
      record.blank
    have key := Record.putMembers_append_eq_ok tableName
      (record.putMembers_member "Key" Item.decoder _ rfl
        request.key.decoder_toJson _)
    have update := Record.putMembers_append_eq_ok key
      (record.putMembers_text "UpdateExpression" _ rfl request.update _ rfl)
    have names := Record.putMembers_append_eq_ok update
      (record.putMembers_names "ExpressionAttributeNames" _ rfl
        request.names _ rfl)
    have values := Record.putMembers_append_eq_ok names
      (record.putMembers_item "ExpressionAttributeValues" _ rfl
        request.values _ rfl)
    exact Record.putMembers_append_eq_ok values
      (record.putMembers_returnValues "ReturnValues" _ rfl
        request.returnValues _ rfl)
  · simp [record, Field.of, Members.names]

end UpdateRequest

namespace QueryRequest

/-- A request with the members of all maps in code point order. -/
def sorted (request : QueryRequest) : QueryRequest :=
  { request with
    values := request.values.sorted
    startKey := request.startKey.sorted }

theorem unordered : record.Unordered sorted where
  blank := rfl
  fields := by
    simp only [record, List.forall_mem_cons]
    exact ⟨Decoder.string_unordered.field fun _ _ => rfl,
      Decoder.text_unordered.field fun _ _ => rfl,
      Decoder.text_unordered.field fun _ _ => rfl,
      Decoder.text_unordered.field fun _ _ => rfl,
      Decoder.names_unordered.field fun _ _ => rfl,
      Item.decoder_unordered.field fun _ _ => rfl,
      Item.decoder_unordered.field fun _ _ => rfl, List.forall_mem_nil _⟩
  commutes := by simp [record, Field.commutes_of]

theorem restores : record.Restores toJson sorted := by
  refine .of_unordered unordered (fun request => ?_) fun request => ?_
  · have tableName := record.putMembers_member "TableName" .string _ rfl
      (rfl : Decoder.string.ofJson (.string request.tableName) = .ok _)
      record.blank
    have keyCondition := Record.putMembers_append_eq_ok tableName
      (record.putMembers_text "KeyConditionExpression" _ rfl
        request.keyCondition _ rfl)
    have filter := Record.putMembers_append_eq_ok keyCondition
      (record.putMembers_text "FilterExpression" _ rfl request.filter _ rfl)
    have projection := Record.putMembers_append_eq_ok filter
      (record.putMembers_text "ProjectionExpression" _ rfl
        request.projection _ rfl)
    have names := Record.putMembers_append_eq_ok projection
      (record.putMembers_names "ExpressionAttributeNames" _ rfl
        request.names _ rfl)
    have values := Record.putMembers_append_eq_ok names
      (record.putMembers_item "ExpressionAttributeValues" _ rfl
        request.values _ rfl)
    exact Record.putMembers_append_eq_ok values
      (record.putMembers_item "ExclusiveStartKey" _ rfl request.startKey _ rfl)
  · simp [record, Field.of, Members.names]

end QueryRequest

namespace ScanRequest

/-- A request with the members of all maps in code point order. -/
def sorted (request : ScanRequest) : ScanRequest :=
  { request with
    values := request.values.sorted
    startKey := request.startKey.sorted }

theorem unordered : record.Unordered sorted where
  blank := rfl
  fields := by
    simp only [record, List.forall_mem_cons]
    exact ⟨Decoder.string_unordered.field fun _ _ => rfl,
      Decoder.text_unordered.field fun _ _ => rfl,
      Decoder.text_unordered.field fun _ _ => rfl,
      Decoder.names_unordered.field fun _ _ => rfl,
      Item.decoder_unordered.field fun _ _ => rfl,
      Item.decoder_unordered.field fun _ _ => rfl, List.forall_mem_nil _⟩
  commutes := by simp [record, Field.commutes_of]

theorem restores : record.Restores toJson sorted := by
  refine .of_unordered unordered (fun request => ?_) fun request => ?_
  · have tableName := record.putMembers_member "TableName" .string _ rfl
      (rfl : Decoder.string.ofJson (.string request.tableName) = .ok _)
      record.blank
    have filter := Record.putMembers_append_eq_ok tableName
      (record.putMembers_text "FilterExpression" _ rfl request.filter _ rfl)
    have projection := Record.putMembers_append_eq_ok filter
      (record.putMembers_text "ProjectionExpression" _ rfl
        request.projection _ rfl)
    have names := Record.putMembers_append_eq_ok projection
      (record.putMembers_names "ExpressionAttributeNames" _ rfl
        request.names _ rfl)
    have values := Record.putMembers_append_eq_ok names
      (record.putMembers_item "ExpressionAttributeValues" _ rfl
        request.values _ rfl)
    exact Record.putMembers_append_eq_ok values
      (record.putMembers_item "ExclusiveStartKey" _ rfl request.startKey _ rfl)
  · simp [record, Field.of, Members.names]

end ScanRequest

/-! ## Responses -/

namespace Page

/-- A page with the members of all maps in code point order. -/
def sorted (page : Page) : Page :=
  { page with
    items := page.items.map Item.sorted
    lastEvaluatedKey := page.lastEvaluatedKey.sorted }

variable (name : String)

theorem unordered : (record name).Unordered sorted where
  blank := rfl
  fields := by
    simp only [record, List.forall_mem_cons]
    exact ⟨Item.decoder_unordered.list.field fun _ _ => rfl,
      Decoder.int32_unordered.field fun _ _ => rfl,
      Decoder.int32_unordered.field fun _ _ => rfl,
      Item.decoder_unordered.field fun _ _ => rfl, List.forall_mem_nil _⟩
  commutes := by simp [record, Field.commutes_of]

/-- Items that are left out if there are none are read back. -/
theorem putMembers_items (items : List Item) :
    (record name).putMembers
        (if items.isEmpty then [] else [("Items", .array (items.map Item.toJson))])
        empty = .ok { empty with items := items } := by
  split
  · next isEmpty =>
      rw [List.isEmpty_iff.1 isEmpty]
      rfl
  · have read : Item.decoder.list.ofJson (.array (items.map Item.toJson)) =
        .ok (items.map id) :=
      mapM_map_eq_ok fun item _ => item.decoder_toJson
    rw [List.map_id] at read
    exact (record name).putMembers_member "Items" Item.decoder.list _ rfl read
      empty

theorem restores : (record name).Restores toJson sorted := by
  refine .of_unordered (unordered name) (fun page => ?_) fun page => ?_
  · have count := (record name).putMembers_member "Count" .int32 _ rfl
      (Decoder.int32_ofJson page.count) { empty with items := page.items }
    have scannedCount := Record.putMembers_append_eq_ok count
      ((record name).putMembers_member "ScannedCount" .int32 _ rfl
        (Decoder.int32_ofJson page.scannedCount) _)
    have counts := Record.putMembers_append_eq_ok
      (putMembers_items name page.items) scannedCount
    exact Record.putMembers_append_eq_ok counts
      ((record name).putMembers_item "LastEvaluatedKey" _ rfl
        page.lastEvaluatedKey _ rfl)
  · simp [record, Field.of, Members.names]

end Page

namespace Written

/-- Returned attributes with the members of all maps in code point order. -/
def sorted (written : Written) : Written := ⟨written.attributes.sorted⟩

variable (name : String)

theorem unordered : (record name).Unordered sorted where
  blank := rfl
  fields := by
    simp only [record, List.forall_mem_cons]
    exact ⟨Item.decoder_unordered.field fun _ _ => rfl, List.forall_mem_nil _⟩
  commutes := by simp [record]

theorem restores : (record name).Restores toJson sorted := by
  refine .of_unordered (unordered name) (fun written => ?_) fun written => ?_
  · exact (record name).putMembers_item "Attributes" _ rfl written.attributes
      empty rfl
  · simp [record, Field.of]

end Written

/-! ## All messages -/

/-- Every expression, request and response is read back from what is written of
it. -/
theorem messages_restored :
    Expression.record.Restores Expression.toJson Expression.sorted ∧
      PutRequest.record.Restores PutRequest.toJson PutRequest.sorted ∧
      UpdateRequest.record.Restores UpdateRequest.toJson
        UpdateRequest.sorted ∧
      QueryRequest.record.Restores QueryRequest.toJson QueryRequest.sorted ∧
      ScanRequest.record.Restores ScanRequest.toJson ScanRequest.sorted ∧
      Page.queryRecord.Restores Page.toJson Page.sorted ∧
      Page.scanRecord.Restores Page.toJson Page.sorted ∧
      Written.updateRecord.Restores Written.toJson Written.sorted ∧
      Written.putRecord.Restores Written.toJson Written.sorted :=
  ⟨Expression.restores, PutRequest.restores, UpdateRequest.restores,
    QueryRequest.restores, ScanRequest.restores, Page.restores _,
    Page.restores _, Written.restores _, Written.restores _⟩

/-- The last page of a query, with one item. -/
def nestedPage : Page where
  items := [.ofList [("id", .string "a"), ("more", Attribute.nestedMap)]]
  count := 1
  scannedCount := 2
  lastEvaluatedKey := .empty

/-- The written form of the same page with the members of all objects the other
way round. -/
def reversedPage : Json :=
  .object [
    ("ScannedCount", .number (.ofInt32 2)),
    ("Count", .number (.ofInt32 1)),
    ("Items", .array [.object [
      ("more", Attribute.nestedDocument),
      ("id", .object [("S", .string "a")])]])]

theorem messages_restored_reversedPage :
    Page.queryRecord.decoder.ofJson nestedPage.toJson = .ok nestedPage ∧
      ∃ read, Page.queryRecord.decoder.ofJson reversedPage = .ok read ∧
        read.sorted = nestedPage.sorted := by
  have distinct : nestedPage.toJson.Distinct := by decide +kernel
  have distinctReversed : reversedPage.Distinct := by decide +kernel
  have alike : reversedPage.Alike nestedPage.toJson := by
    unfold Json.Alike
    decide +kernel
  obtain ⟨_, _, _, _, _, query, _⟩ := messages_restored
  exact ⟨query.restored nestedPage, query.inAnyOrder nestedPage reversedPage
    distinct distinctReversed alike⟩

end TableQuery
