import Mqss.RabbitMq
import Mqss.FiniteMap

/-!
Envelopes on their way through the client library's messages. Every field has its own
convention for being absent on either side: an empty text, no address, an empty map,
a property that is not set. What an envelope loses is a reply address without a name;
what a foreign message loses is its empty texts and its headers that are not strings.
-/

namespace Mqss.RabbitMq
open Mqss.FiniteMap

/-! ### The loops over the headers -/

/-- The loop that fills the header table, over the headers in the order of their iteration. -/
def fillTable (headers : List (Sigma fun _ : String => String)) : AList (fun _ : String => TableValue) :=
  headers.foldl (fun table header => table.insert header.1 (.string header.2)) ∅

/-- One round of the loop over the header table: a value that is not a string is caught. -/
def emplaceString (headers : AList (fun _ : String => String)) (key : String) (value : TableValue) :
    AList (fun _ : String => String) :=
  match value.GetString with
  | none => headers
  | some text => emplace headers key text

def collectStrings (table : List (Sigma fun _ : String => TableValue)) : AList (fun _ : String => String) :=
  table.foldl (fun headers entry => emplaceString headers entry.1 entry.2) ∅

/-- In whatever order the headers are visited, the table has them all. -/
theorem fillTable_eq {entries : List (Sigma fun _ : String => String)} {headers : Finmap (fun _ : String => String)}
    (visits : Visits entries headers) :
    (fillTable entries).toFinmap = filterMapValues (fun text => some (.string text)) headers := by
  apply Finmap.ext_lookup
  intro key
  rw [Finmap.lookup_toFinmap, lookup_filterMapValues, fillTable, lookup_inserted _ visits.distinct, visits.dlookup,
    Option.map_eq_bind]
  rfl

/-- In whatever order the table is visited, the headers are its strings. -/
theorem collectStrings_eq {entries : List (Sigma fun _ : String => TableValue)}
    {table : Finmap (fun _ : String => TableValue)} (visits : Visits entries table) :
    (collectStrings entries).toFinmap = filterMapValues TableValue.GetString table := by
  have sets : ∀ (headers : AList (fun _ : String => String)) key value, headers.lookup key = none →
      (emplaceString headers key value).lookup key = value.GetString := by
    intro headers key value absent
    unfold emplaceString
    cases value.GetString with
    | none => exact absent
    | some text => exact lookup_emplace absent
  have leaves : ∀ (headers : AList (fun _ : String => String)) key value other, other ≠ key →
      (emplaceString headers key value).lookup other = headers.lookup other := by
    intro headers key value other apart
    unfold emplaceString
    split
    · rfl
    · exact lookup_emplace_ne headers apart
  apply Finmap.ext_lookup
  intro key
  have written := @lookup_written _ _ _ _ _ (fun headers key => AList.lookup key headers) emplaceString
    TableValue.GetString sets leaves _ visits.distinct ∅ (fun _ _ => AList.lookup_empty _) key
  rw [AList.lookup_empty, Option.or_none, visits.dlookup] at written
  rw [Finmap.lookup_toFinmap, lookup_filterMapValues]
  exact written

/-- The header table of a converted envelope is what the loop fills, when there are headers. -/
theorem toBasicMessage_table {envelope : Envelope} {entries : List (Sigma fun _ : String => String)}
    (visits : Visits entries envelope.headers) :
    (toBasicMessage envelope).header_table = if entries = [] then none else some (fillTable entries).toFinmap := by
  have none : envelope.headers = ∅ ↔ entries = [] := by
    rw [← Multiset.coe_eq_zero, visits, Finmap.ext_iff]
    rfl
  rw [fillTable_eq visits]
  simp only [toBasicMessage, none]

/-- The headers of a converted message are what the loop collects from its table. -/
theorem fromBasicMessage_headers {msg : BasicMessage} {table : Finmap (fun _ : String => TableValue)}
    {entries : List (Sigma fun _ : String => TableValue)} (isSet : msg.header_table = some table)
    (visits : Visits entries table) : (fromBasicMessage msg).headers = (collectStrings entries).toFinmap := by
  rw [collectStrings_eq visits]
  simp only [fromBasicMessage, isSet]

/-! ### An envelope there and back -/

/-- What is left of an envelope: an address without a name is none. -/
def named (envelope : Envelope) : Envelope :=
  { envelope with reply_to := envelope.reply_to.filter fun address => address.name ≠ "" }

theorem headers_back (headers : Finmap (fun _ : String => String)) :
    filterMapValues TableValue.GetString (filterMapValues (fun text => some (.string text)) headers) = headers := by
  apply Finmap.ext_lookup
  intro key
  rw [lookup_filterMapValues, lookup_filterMapValues]
  cases headers.lookup key <;> rfl

theorem text_back (text : String) : (if text = "" then none else some text).getD "" = text := by
  split
  · rename_i empty
    exact empty.symm
  · rfl

theorem from_toBasicMessage (envelope : Envelope) : fromBasicMessage (toBasicMessage envelope) = named envelope := by
  obtain ⟨payload, content_type, headers, correlation_id, reply_to⟩ := envelope
  have address : (toBasicMessage ⟨payload, content_type, headers, correlation_id, reply_to⟩).reply_to.map Address.mk =
      reply_to.filter fun address => address.name ≠ "" := by
    cases reply_to with
    | none => rfl
    | some address => by_cases empty : address.name = "" <;> simp [toBasicMessage, Option.filter_some, empty]
  have table : (fromBasicMessage (toBasicMessage ⟨payload, content_type, headers, correlation_id, reply_to⟩)).headers =
      headers := by
    by_cases empty : headers = ∅
    · simp [fromBasicMessage, toBasicMessage, empty]
    · simp [fromBasicMessage, toBasicMessage, empty, headers_back]
  rw [named, ← address, Envelope.mk.injEq]
  exact ⟨rfl, text_back content_type, table, text_back correlation_id, rfl⟩

theorem named_named (envelope : Envelope) : named (named envelope) = named envelope := by
  simp [named, Option.filter_filter]

/-! ### A message there and back -/

/-- The value of a header, if the message has it. -/
def BasicMessage.header (msg : BasicMessage) (key : String) : Option TableValue :=
  msg.header_table.bind fun table => table.lookup key

/-- A message with everything of another one that is not empty, and with exactly its
    headers that are strings. -/
structure Carries (msg after : BasicMessage) : Prop where
  body : after.body = msg.body
  content_type : after.content_type = msg.content_type.filter (· ≠ "")
  correlation_id : after.correlation_id = msg.correlation_id.filter (· ≠ "")
  reply_to : after.reply_to = msg.reply_to.filter (· ≠ "")
  headers : ∀ key value, after.header key = some value ↔
    msg.header key = some value ∧ ∃ text, value = .string text

theorem text_kept (field : Option String) :
    (if field.getD "" = "" then none else some (field.getD "")) = field.filter (· ≠ "") := by
  cases field with
  | none => rfl
  | some text => by_cases empty : text = "" <;> simp [Option.filter_some, empty]

theorem header_toBasicMessage (envelope : Envelope) (key : String) :
    (toBasicMessage envelope).header key = (envelope.headers.lookup key).map .string := by
  unfold toBasicMessage BasicMessage.header
  by_cases empty : envelope.headers = ∅
  · simp [empty]
  · simp [empty, lookup_filterMapValues, Option.map_eq_bind]

theorem headers_fromBasicMessage (msg : BasicMessage) (key : String) :
    (fromBasicMessage msg).headers.lookup key = (msg.header key).bind TableValue.GetString := by
  unfold fromBasicMessage BasicMessage.header
  cases msg.header_table with
  | none => simp
  | some table => simp [lookup_filterMapValues]

theorem to_fromBasicMessage (msg : BasicMessage) : Carries msg (toBasicMessage (fromBasicMessage msg)) where
  body := rfl
  content_type := text_kept msg.content_type
  correlation_id := text_kept msg.correlation_id
  reply_to := by
    unfold toBasicMessage fromBasicMessage
    cases msg.reply_to with
    | none => rfl
    | some name => by_cases empty : name = "" <;> simp [Option.filter_some, empty]
  headers := by
    intro key value
    rw [header_toBasicMessage, headers_fromBasicMessage]
    cases msg.header key with
    | none => simp
    | some found =>
      cases found with
      | string text =>
        simp only [TableValue.GetString, Option.bind_some, Option.map_some, Option.some.injEq]
        constructor
        · rintro rfl
          exact ⟨rfl, text, rfl⟩
        · exact And.left
      | other type content =>
        simp only [TableValue.GetString, Option.bind_some, Option.map_none, Option.some.injEq]
        refine iff_of_false (by simp) ?_
        rintro ⟨rfl, text, same⟩
        cases same

/-- An envelope survives the client library up to a reply address without a name, which
    does not come back; a message of any sender keeps what is not empty and its headers
    that are strings. -/
theorem envelopes_survive (envelope : Envelope) (msg : BasicMessage) :
    fromBasicMessage (toBasicMessage envelope) =
      { envelope with reply_to := envelope.reply_to.filter fun address => address.name ≠ "" } ∧
    fromBasicMessage (toBasicMessage (fromBasicMessage (toBasicMessage envelope))) =
      fromBasicMessage (toBasicMessage envelope) ∧
    Carries msg (toBasicMessage (fromBasicMessage msg)) := by
  refine ⟨from_toBasicMessage envelope, ?_, to_fromBasicMessage msg⟩
  rw [from_toBasicMessage, from_toBasicMessage, named_named]

/-- A content type that is set to the empty text is not set again. -/
example : toBasicMessage (fromBasicMessage { body := "task", content_type := some "", reply_to := some "client" }) =
    { body := "task", reply_to := some "client" } := by decide

end Mqss.RabbitMq
