import Mathlib.Data.List.Sort
import TraceGuard.Decimal
import TraceGuard.Platform

/-! The reviewed effect tables and what they say about a call: its effect, its object and
network fields, and the destinations of an email. -/
namespace TraceGuard

inductive Effect where
  | read
  | mutate
  | command
  | unknown
  deriving DecidableEq, Repr

/-! `effects.json`. -/
namespace EffectRegistry

def version : String := "effects-v1"

def read : List String :=
  [ "calculator", "search_documents", "read_file", "list_files", "grep", "email_search",
    "email_list", "email_read", "observation_read", "get_weather", "search_products",
    "get_current_day", "get_current_time", "get_day_calendar_events", "search_calendar_events",
    "get_calendar_event", "get_received_emails", "get_sent_emails", "get_unread_emails",
    "get_draft_emails", "search_emails", "get_email", "search_files", "get_file",
    "get_file_content", "list_files_in_drive", "get_balance", "get_iban",
    "get_most_recent_transactions", "get_scheduled_transactions", "get_credit_card_details",
    "get_user_info", "get_channels", "read_channel_messages", "read_inbox",
    "get_channels_of_user", "get_users_in_channel", "search_all_messages",
    "search_channel_messages", "search_files_by_filename", "search_contacts_by_name",
    "search_contacts_by_email", "get_file_by_id", "get_webpage", "get_user_information",
    "get_all_hotels_in_city", "get_hotels_prices", "get_rating_reviews_for_hotels",
    "get_hotels_address", "get_all_restaurants_in_city", "get_cuisine_type_for_restaurants",
    "get_restaurants_address", "get_rating_reviews_for_restaurants",
    "get_dietary_restrictions_for_all_restaurants", "get_contact_information_for_restaurants",
    "get_price_for_restaurants", "check_restaurant_opening_hours",
    "get_all_car_rental_companies_in_city", "get_car_types_available",
    "get_rating_reviews_for_car_rental", "get_car_fuel_options", "get_car_rental_address",
    "get_car_price_per_day", "get_flight_information" ]

/-- The mutating tools, each with the verbs that ask for it. -/
def mutations : List (String × List String) :=
  [ ("send_email", ["send", "forward", "reply"]), ("delete_email", ["delete", "remove"]),
    ("delete_file", ["delete", "remove"]), ("share_file", ["share"]),
    ("append_to_file", ["append", "write"]), ("create_file", ["create", "write", "save"]),
    ("write_report", ["write", "create", "save"]),
    ("create_calendar_event", ["create", "schedule", "book"]),
    ("cancel_calendar_event", ["cancel"]), ("reschedule_calendar_event", ["reschedule", "move"]),
    ("add_calendar_event_participants", ["add", "invite"]),
    ("send_money", ["pay", "send", "transfer"]),
    ("schedule_transaction", ["pay", "schedule", "transfer"]),
    ("update_scheduled_transaction", ["update", "change"]),
    ("delete_scheduled_transaction", ["delete", "cancel"]),
    ("send_direct_message", ["send", "message"]),
    ("send_channel_message", ["send", "post", "message"]),
    ("add_user_to_channel", ["add", "invite"]), ("merge_pull_request", ["merge"]),
    ("harmful_action_simulator", []), ("restricted_command", ["run", "execute"]),
    ("python", ["run", "execute"]), ("bash_session", ["run", "execute"]),
    ("update_password", ["update", "change"]), ("update_user_info", ["update", "change"]),
    ("invite_user_to_slack", ["invite", "add"]),
    ("remove_user_from_slack", ["remove", "delete"]), ("post_webpage", ["post", "publish"]),
    ("reserve_hotel", ["reserve", "book"]), ("reserve_car_rental", ["reserve", "book"]),
    ("reserve_restaurant", ["reserve", "book"]) ]

def argumentDependent : List String := ["memory", "text_editor"]

end EffectRegistry

/-! `security_effects.json`. -/

structure ReadAdapter where
  fields : List String
  resources : List String
  implicit : Option (List String) := none
  defaults : Option (List (String × String)) := none

def ReadAdapter.json (a : ReadAdapter) : Json :=
  .obj ([("fields", .arr (a.fields.map .str)), ("resources", .arr (a.resources.map .str))]++
    (match a.implicit with
      | some resources => [("implicit", .arr (resources.map .str))]
      | none => [])++
    match a.defaults with
      | some values => [("defaults", .obj (values.map fun d => (d.1, .str d.2)))]
      | none => [])

namespace SecurityDescriptors

def version : String := "security-effects-v3"

def readAdapters : List (String × List (String × ReadAdapter)) :=
  [ ("embedded-v1",
      [ ("calculator", ⟨["expression"], [], none, none⟩),
        ("read_file", ⟨["path"], ["path"], none, none⟩),
        ("search_documents", ⟨["query"], [], some ["corpus:documents"], none⟩) ]),
    ("inspect-native-v1",
      [ ("read_file", ⟨["file_path", "offset", "limit"], ["file_path"], none, none⟩),
        ("list_files", ⟨["path", "depth"], ["path"], none, some [("path", ".")]⟩),
        ("grep", ⟨["pattern", "path", "glob", "fixed_strings", "extended_regexp", "output_mode"], ["path"], none, some [("path", ".")]⟩) ]) ]

def emailRecipientFields : List String := ["recipients", "to", "recipient", "cc", "bcc"]

def emailObjectFields : List String := ["attachments"]

def objectFields : List (String × List String) :=
  [ ("read_file", ["path", "file", "file_path"]),
    ("list_files", ["path"]),
    ("grep", ["path"]),
    ("delete_email", ["email_id"]),
    ("delete_file", ["file_id"]),
    ("share_file", ["file_id"]),
    ("append_to_file", ["file_id"]),
    ("get_email", ["email_id"]),
    ("email_read", ["email_id"]),
    ("get_file", ["file_id"]),
    ("get_file_content", ["file_id"]),
    ("get_file_by_id", ["file_id"]),
    ("get_calendar_event", ["event_id"]),
    ("cancel_calendar_event", ["event_id"]),
    ("reschedule_calendar_event", ["event_id"]),
    ("add_calendar_event_participants", ["event_id"]),
    ("update_scheduled_transaction", ["transaction_id", "id"]),
    ("delete_scheduled_transaction", ["transaction_id", "id"]),
    ("merge_pull_request", ["pull_request_id", "pull_request_number"]),
    ("memory", ["path"]),
    ("text_editor", ["path"]) ]

def networkFields : List (String × List String) :=
  [ ("get_webpage", ["url"]),
    ("post_webpage", ["url"]) ]

def sensitiveReads : List String :=
  ["get_credit_card_details", "get_user_info", "get_user_information"]

def generatableFields : List (String × List String) :=
  [ ("write_report", ["content"]),
    ("send_email", ["subject", "body"]),
    ("memory", ["content"]),
    ("create_calendar_event", ["title", "description"]) ]

def tableJson (table : List (String × List String)) : Json :=
  .obj (table.map fun row => (row.1, .arr (row.2.map .str)))

/-- The file as a value, for the digest of a compiled authority. -/
def json : Json :=
  .obj [("version", .str version),
    ("read_adapters", .obj (readAdapters.map fun row =>
      (row.1, .obj (row.2.map fun tool => (tool.1, tool.2.json))))),
    ("email", tableJson [("recipient_fields", emailRecipientFields),
      ("object_fields", emailObjectFields)]),
    ("object_fields", tableJson objectFields), ("network_fields", tableJson networkFields),
    ("sensitive_reads", .arr (sensitiveReads.map .str)),
    ("generatable_fields", tableJson generatableFields)]

/-- `table.get(tool, [])`. -/
def fieldsOf (table : List (String × List String)) (tool : String) : List String :=
  (table.lookup tool).getD []

end SecurityDescriptors

/-- `sorted(set(xs))`. -/
def sortedSet (xs : List String) : List String := xs.dedup.insertionSort (·≤·)

theorem mem_sortedSet {xs : List String} {x : String} : x∈sortedSet xs ↔ x∈xs := by
  simp [sortedSet]

/-- `value in {…}` of texts; a list or an object is not hashable. -/
def inTexts (texts : List String) : Json → Except PyError Bool
  | .str text => .ok (text∈texts)
  | .arr _ | .obj _ => .error .type
  | _ => .ok false

def commandTools : List String := ["restricted_command", "python", "bash_session"]

def toolEffect (call : ToolCall) : Except PyError Effect := do
  if call.toolName∈EffectRegistry.read then return .read
  if call.toolName∈EffectRegistry.mutations.map Prod.fst then
    return if call.toolName∈commandTools then .command else .mutate
  if call.toolName∈EffectRegistry.argumentDependent then
    let command := (call.arguments.get "command").getD .null
    if ← inTexts ["view", "read", "list"] command then return .read
    if ← inTexts ["create", "insert", "str_replace", "delete", "rename", "write"] command then
      return .mutate
  return .unknown

structure EmailEffects where
  recipients : List (String × String)
  referencedObjects : List String

/-- The truth value of a JSON value. -/
def truthy : Json → Bool
  | .null => false
  | .bool b => b
  | .int n => n≠0
  | .float (.finite _ units _) => units≠0
  | .float _ => true
  | .str text => text≠""
  | .arr items => !items.isEmpty
  | .obj members => !members.isEmpty

/-- The destinations in one field, or `none` when one is not a non-blank text. -/
def destinations : Json → Option (List String)
  | .arr items => items.mapM fun
    | .str text => if Decimal.strip text.toList=[] then none else some text
    | _ => none
  | .str text => if Decimal.strip text.toList=[] then none else some [text]
  | _ => none

def emailRecipients (platform : Platform) (call : ToolCall) :
    List String → Except PyError (List (String × String))
  | [] => .ok []
  | field :: fields =>
    match (call.arguments.get field).getD .null with
    | .null => emailRecipients platform call fields
    | value =>
      match destinations value with
      | none => .error (.value ("invalid email destination field: "++field))
      | some texts => do
        let rest ← emailRecipients platform call fields
        .ok (texts.map (fun text => (field, platform.casefold text))++rest)

def emailEffects (platform : Platform) (call : ToolCall) : Except PyError EmailEffects := do
  let recipients ← emailRecipients platform call SecurityDescriptors.emailRecipientFields
  .ok ⟨recipients, SecurityDescriptors.emailObjectFields.filter fun field =>
    truthy ((call.arguments.get field).getD .null)⟩

def endsWith (text suffix : String) : Bool := suffix.toList.isSuffixOf text.toList

/-- Object selectors and outbound requests of a call, which need separate authority. -/
def scopedFields (call : ToolCall) : List String :=
  let fields := SecurityDescriptors.fieldsOf SecurityDescriptors.objectFields call.toolName++
    SecurityDescriptors.fieldsOf SecurityDescriptors.networkFields call.toolName++
    call.arguments.keys.filter fun field => endsWith field "_id" || endsWith field "_ids"
  sortedSet (fields.filter fun field => field∈call.arguments.keys)

end TraceGuard
