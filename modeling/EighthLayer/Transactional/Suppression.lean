import EighthLayer.Knowledge.Unit
import EighthLayer.Lib.JsonFields
import EighthLayer.Lib.Table

/-!
# EighthLayer.Transactional.Suppression

`transactional/suppression.py` and `transactional/sns_writer.py`: the table of
suppressed addresses and the handler of SNS records that fills it.

Each handler is given with what it raises on (`none`). What a batch asks for is stated
apart from the handler, as the list of its *hits*: the recipients of its well-formed
permanent bounces and complaints. A handler that returns has inserted the rows of the
hits in their order, each unless its address had one (`handleLambdaEvent_table`).
-/

namespace EighthLayer.Transactional

open Lib Knowledge

variable [Casing]

/-! ## suppression.py -/

/-- A row of `transactional_suppression`. -/
structure SuppressionEntry where
  /-- Lower-cased. -/
  address : String
  reason : String
  suppressedAt : String
  /-- The value bound for it. -/
  sourceEventId : Json

/-- `transactional_suppression`. -/
abbrev Suppressions := Table SuppressionEntry.address

/-- `check_suppression`. -/
def checkSuppression (t : Suppressions) (address : String) : Option SuppressionEntry :=
  t.find (Casing.lower address)

/-- The values `sqlite3` binds: no list, no dict and no integer of more than 64 bits. -/
def bindable : Json → Bool
  | .arr _ | .obj _ => false
  | .num n => match n.toInt with
    | some i => -2 ^ 63 ≤ i && i < 2 ^ 63
    | none => true
  | _ => true

/-- `record_suppression`, `clock` being the time at which an address gets its row; `none`
where it raises. -/
def recordSuppression (clock : String → String) (t : Suppressions) (address : Json)
    (reason : String) (eventId : Json) : Option (Suppressions × Bool) :=
  match address with
  | .str a =>
    if bindable eventId then
      match t.insert ⟨Casing.lower a, reason, clock (Casing.lower a), eventId⟩ with
      | some t' => some (t', true)
      | none => some (t, false)
    else none
  -- `address.lower()` of another type
  | _ => none

/-! ## sns_writer.py -/

/-- What `json.loads` does with a text. -/
inductive Loads where
  | ok (v : Json)
  /-- `JSONDecodeError`. -/
  | decodeError
  /-- An exception of another type. -/
  | raised

/-- What the handler takes from Python. -/
structure Runtime where
  /-- `json.loads`. -/
  loads : String → Loads
  /-- `str` of a list. -/
  listText : List Json → String

/-- Python's truth of a value. -/
def truthy : Json → Bool
  | .null => false
  | .bool b => b
  | .num n => n.text ≠ "0".toList && n.text ≠ "0.0".toList && n.text ≠ "-0.0".toList
  | .str s => s ≠ ""
  | .arr xs => !xs.isEmpty
  | .obj ms => !ms.isEmpty

/-- `v.get(key, default)`; `none` is the `AttributeError` of a value that is no dict. -/
def get (v : Json) (key : String) (default : Json) : Option Json :=
  match v with
  | .obj ms => some ((ms.lookup key).getD default)
  | _ => none

/-- `v == s`, of a string `s`. -/
def isText (v : Json) (s : String) : Bool :=
  match v with
  | .str s' => s' = s
  | _ => false

/-- The values of `for x in v`; `none` is its `TypeError`. -/
def iterate : Json → Option (List Json)
  | .arr xs => some xs
  | .str s => some (s.toList.map fun c => .str c.toString)
  | .obj ms => some (ms.map fun m => .str m.1)
  | _ => none

/-- `(detail.get("timestamp", "") or "")[:10] or "unknown"`, as text. -/
def eventDate (R : Runtime) (detail : Json) : Option String :=
  (get detail "timestamp" (.str "")).bind fun timestamp =>
    if truthy timestamp then
      match timestamp with
      | .str s => some (String.ofList (s.toList.take 10))
      | .arr xs => some (R.listText (xs.take 10))
      | _ => none
    else some "unknown"

/-- What an envelope asks for: a reason and the recipients it applies to. -/
structure Notice where
  reason : String
  recipients : Json

/-- The head of `handle_sns_message`, once the message is decoded; `none` where it raises,
`some none` where it returns 0. -/
def readNotice (R : Runtime) (envelope : Json) : Option (Option Notice) := do
  let eventType ← get envelope "notificationType" .null
  if isText eventType "Bounce" then
    let bounce ← get envelope "bounce" (.obj [])
    let bounceType ← get bounce "bounceType" (.str "Unknown")
    if isText bounceType "Permanent" then
      let date ← eventDate R bounce
      let recipients ← get bounce "bouncedRecipients" (.arr [])
      return some ⟨"hard_bounce_" ++ date, recipients⟩
    else return none
  else if isText eventType "Complaint" then
    let complaint ← get envelope "complaint" (.obj [])
    let date ← eventDate R complaint
    let recipients ← get complaint "complainedRecipients" (.arr [])
    return some ⟨"complaint_" ++ date, recipients⟩
  else return none

/-- `(recipient or {}).get("emailAddress")`. -/
def recipientAddress (recipient : Json) : Option Json :=
  get (if truthy recipient then recipient else .obj []) "emailAddress" .null

/-- The loop of `handle_sns_message` over the recipients: the rows it recorded, `none` where
it raises. -/
def recordRecipients (clock : String → String) (reason : String) (eventId : Json) :
    List Json → Suppressions → Suppressions × Option Nat
  | [], t => (t, some 0)
  | recipient :: rest, t =>
    match recipientAddress recipient with
    | none => (t, none)
    | some address =>
      if truthy address then
        match recordSuppression clock t address reason eventId with
        -- `except Exception` logs and goes on
        | none => recordRecipients clock reason eventId rest t
        | some (t', inserted) =>
          let (t'', n) := recordRecipients clock reason eventId rest t'
          (t'', n.map (· + inserted.toNat))
      else recordRecipients clock reason eventId rest t

/-- `handle_sns_message`: the table it leaves and the rows it recorded. -/
def handleSnsMessage (R : Runtime) (clock : String → String) (t : Suppressions)
    (message eventId : Json) : Suppressions × Option Nat :=
  match message with
  | .str body =>
    match R.loads body with
    | .decodeError => (t, some 0)
    | .raised => (t, none)
    | .ok envelope =>
      match readNotice R envelope with
      | none => (t, none)
      | some none => (t, some 0)
      | some (some notice) =>
        match iterate notice.recipients with
        | none => (t, none)
        | some recipients => recordRecipients clock notice.reason eventId recipients t
  -- `json.loads` of another type is a `TypeError`
  | _ => (t, none)

/-- The message of a record and its id. -/
def readRecord (record : Json) : Option (Json × Json) := do
  let sns ← get record "Sns" (.obj [])
  let message ← get sns "Message" (.str "")
  let messageId ← get sns "MessageId" .null
  return (message, messageId)

/-- The result of `handle_lambda_event`. -/
structure Tally where
  recorded : Nat
  skipped : Nat
deriving DecidableEq

/-- The loop of `handle_lambda_event`. -/
def handleRecords (R : Runtime) (clock : String → String) (tally : Tally) :
    List Json → Suppressions → Suppressions × Option Tally
  | [], t => (t, some tally)
  | record :: rest, t =>
    match readRecord record with
    | none => (t, none)
    | some (message, messageId) =>
      match handleSnsMessage R clock t message messageId with
      | (t', none) => (t', none)
      | (t', some n) =>
        handleRecords R clock ⟨tally.recorded + n, tally.skipped + if n = 0 then 1 else 0⟩ rest t'

/-- `handle_lambda_event`: the table it leaves and its result, `none` where it raises. -/
def handleLambdaEvent (R : Runtime) (clock : String → String) (t : Suppressions)
    (event : List (String × Json)) : Suppressions × Option Tally :=
  match iterate ((event.lookup "Records").getD (.arr [])) with
  | none => (t, none)
  | some records => handleRecords R clock ⟨0, 0⟩ records t

/-! ## What a batch asks for -/

/-- A recipient of a well-formed permanent bounce or complaint. -/
structure Hit where
  address : String
  reason : String
  eventId : Json

/-- The row a hit asks for. -/
def Hit.row (clock : String → String) (h : Hit) : SuppressionEntry :=
  ⟨Casing.lower h.address, h.reason, clock (Casing.lower h.address), h.eventId⟩

/-- A well-formed address is a text that is not empty. -/
def addressHit (reason : String) (eventId address : Json) : Option Hit :=
  match address with
  | .str a => if a = "" then none else some ⟨a, reason, eventId⟩
  | _ => none

/-- A well-formed recipient is a dict with an address. -/
def recipientHit (reason : String) (eventId recipient : Json) : Option Hit :=
  match recipient with
  | .obj ms => addressHit reason eventId ((ms.lookup "emailAddress").getD .null)
  | _ => none

/-- The hits of a message. -/
def messageHits (R : Runtime) (message eventId : Json) : List Hit :=
  match message with
  | .str body => match R.loads body with
    | .ok envelope => match readNotice R envelope with
      | some (some ⟨reason, .arr recipients⟩) =>
        if bindable eventId then recipients.filterMap (recipientHit reason eventId) else []
      | _ => []
    | _ => []
  | _ => []

/-- The hits of a record. -/
def recordHits (R : Runtime) (record : Json) : List Hit :=
  match readRecord record with
  | some (message, messageId) => messageHits R message messageId
  | none => []

/-- The hits of a batch, in its order. -/
def eventHits (R : Runtime) (event : List (String × Json)) : List Hit :=
  match event.lookup "Records" with
  | some (.arr records) => records.flatMap (recordHits R)
  | _ => []

/-! ## A handler that returns inserts the hits -/

/-- The table after the rows of hits are inserted or ignored in turn. -/
def record (clock : String → String) (t : Suppressions) (hits : List Hit) : Suppressions :=
  (hits.map (Hit.row clock)).foldl Table.insertOrIgnore t

theorem record_append (clock : String → String) (t : Suppressions) (hits hits' : List Hit) :
    record clock t (hits ++ hits') = record clock (record clock t hits) hits' := by
  rw [record, List.map_append, List.foldl_append]
  rfl

/-- A recipient that is passed over or recorded does what its hit asks for. -/
theorem recordSuppression_hit {clock : String → String} {t : Suppressions} {reason a : String}
    {eventId : Json} (hid : bindable eventId = true) :
    ∃ inserted, recordSuppression clock t (.str a) reason eventId =
      some (t.insertOrIgnore (Hit.row clock ⟨a, reason, eventId⟩), inserted) := by
  unfold recordSuppression Table.insertOrIgnore Hit.row
  simp only [hid, if_true]
  cases t.insert ⟨Casing.lower a, reason, clock (Casing.lower a), eventId⟩ with
  | none => exact ⟨false, rfl⟩
  | some t' => exact ⟨true, rfl⟩

theorem recordSuppression_unbindable {clock : String → String} {t : Suppressions}
    {address : Json} {reason : String} {eventId : Json} (hid : ¬ bindable eventId = true) :
    recordSuppression clock t address reason eventId = none := by
  unfold recordSuppression
  split
  · rw [if_neg hid]
  · rfl

omit [Casing] in
/-- The address a recipient has for the handler is the one its hit names. -/
theorem recipientHit_eq {reason : String} {eventId recipient address : Json}
    (h : recipientAddress recipient = some address) :
    recipientHit reason eventId recipient = addressHit reason eventId address := by
  unfold recipientAddress at h
  cases recipient with
  | obj ms =>
      have hself : (if truthy (.obj ms) then .obj ms else .obj []) = Json.obj ms := by
        cases ms with
        | nil => rfl
        | cons m ms => rfl
      rw [hself] at h
      obtain rfl := Option.some.inj h
      rfl
  | _ =>
      split at h
      · cases h
      · obtain rfl := Option.some.inj h
        rfl

theorem recordRecipients_table {clock : String → String} {reason : String} {eventId : Json}
    {recipients : List Json} {t t' : Suppressions} {n : Nat}
    (h : recordRecipients clock reason eventId recipients t = (t', some n)) :
    t' = record clock t
      (if bindable eventId then recipients.filterMap (recipientHit reason eventId) else []) := by
  induction recipients generalizing t n with
  | nil =>
      cases h
      split
      · rfl
      · rfl
  | cons recipient rest ih =>
      unfold recordRecipients at h
      split at h
      · cases h
      · next address haddress =>
          have hhit : recipientHit reason eventId recipient = addressHit reason eventId address :=
            recipientHit_eq haddress
          by_cases hid : bindable eventId = true
          · simp only [hid, if_true] at ih ⊢
            rw [List.filterMap_cons, hhit]
            cases address with
            | str a =>
                by_cases ha : a = ""
                · subst ha
                  exact ih h
                · obtain ⟨inserted, hrecord⟩ : ∃ inserted,
                      recordSuppression clock t (.str a) reason eventId =
                        some (t.insertOrIgnore (Hit.row clock ⟨a, reason, eventId⟩), inserted) :=
                    recordSuppression_hit hid
                  have htruthy : truthy (.str a) = true := decide_eq_true ha
                  simp only [htruthy, if_true, hrecord] at h
                  obtain ⟨hn, hrest⟩ := Prod.mk.inj h
                  obtain ⟨m, hm, -⟩ := Option.map_eq_some_iff.mp hrest
                  simp only [addressHit, if_neg ha]
                  exact ih (Prod.ext hn hm)
            | _ =>
                -- whether the address is passed over or raises, the loop goes on
                simp only [recordSuppression, ite_self] at h
                exact ih h
          · simp only [hid, Bool.false_eq_true, if_false] at ih ⊢
            rw [recordSuppression_unbindable hid] at h
            simp only [ite_self] at h
            exact ih h

omit [Casing] in
/-- Texts name no recipients. -/
theorem filterMap_recipientHit_texts {α : Type} (text : α → String) (xs : List α)
    (reason : String) (eventId : Json) :
    (xs.map fun x => Json.str (text x)).filterMap (recipientHit reason eventId) = [] := by
  induction xs with
  | nil => rfl
  | cons x xs ih => exact ih

theorem handleSnsMessage_table {R : Runtime} {clock : String → String} {t t' : Suppressions}
    {message eventId : Json} {n : Nat}
    (h : handleSnsMessage R clock t message eventId = (t', some n)) :
    t' = record clock t (messageHits R message eventId) := by
  unfold handleSnsMessage at h
  unfold messageHits
  cases message with
  | str body =>
      dsimp only at h ⊢
      cases hloads : R.loads body with
      | decodeError =>
          rw [hloads] at h
          cases h
          rfl
      | raised =>
          rw [hloads] at h
          cases h
      | ok envelope =>
          rw [hloads] at h
          dsimp only at h ⊢
          cases hnotice : readNotice R envelope with
          | none =>
              rw [hnotice] at h
              cases h
          | some notice =>
              rw [hnotice] at h
              cases notice with
              | none =>
                  cases h
                  rfl
              | some notice =>
                  obtain ⟨reason, recipients⟩ := notice
                  cases recipients with
                  | arr xs => exact recordRecipients_table h
                  | str s =>
                      have ht := recordRecipients_table h
                      rw [filterMap_recipientHit_texts, ite_self] at ht
                      exact ht
                  | obj ms =>
                      have ht := recordRecipients_table h
                      rw [filterMap_recipientHit_texts, ite_self] at ht
                      exact ht
                  | _ => cases h
  | _ => cases h

theorem handleRecords_table {R : Runtime} {clock : String → String} {tally tally' : Tally}
    {records : List Json} {t t' : Suppressions}
    (h : handleRecords R clock tally records t = (t', some tally')) :
    t' = record clock t (records.flatMap (recordHits R)) := by
  induction records generalizing tally t with
  | nil =>
      cases h
      rfl
  | cons r rest ih =>
      unfold handleRecords at h
      split at h
      · cases h
      · next message messageId hread =>
          split at h
          · cases h
          · next t'' n hmessage =>
              have ht := ih h
              rw [handleSnsMessage_table hmessage] at ht
              have hhits : recordHits R r = messageHits R message messageId := by
                rw [recordHits, hread]
              rw [List.flatMap_cons, hhits, record_append]
              exact ht

/-- **A batch that does not raise inserts its hits**, in their order, each unless its address
has a row. -/
theorem handleLambdaEvent_table {R : Runtime} {clock : String → String} {t t' : Suppressions}
    {event : List (String × Json)} {tally : Tally}
    (h : handleLambdaEvent R clock t event = (t', some tally)) :
    t' = record clock t (eventHits R event) := by
  have hnone : ∀ {α : Type} (text : α → String) (xs : List α),
      (xs.map fun x => Json.str (text x)).flatMap (recordHits R) = [] := by
    intro α text xs
    rw [List.flatMap_eq_nil_iff]
    intro v hv
    obtain ⟨x, -, rfl⟩ := List.mem_map.mp hv
    rfl
  unfold handleLambdaEvent at h
  unfold eventHits
  cases hrecords : event.lookup "Records" with
  | none =>
      rw [hrecords] at h
      cases h
      rfl
  | some v =>
      rw [hrecords, Option.getD_some] at h
      cases v with
      | arr records => exact handleRecords_table h
      | str s =>
          have ht := handleRecords_table h
          rwa [hnone] at ht
      | obj ms =>
          have ht := handleRecords_table h
          rwa [hnone] at ht
      | _ => cases h

/-! ## Rows stay -/

/-- Every row of one table is in the other. -/
def Grows (t t' : Suppressions) : Prop := ∀ k r, t.find k = some r → t'.find k = some r

omit [Casing] in
theorem Grows.refl (t : Suppressions) : Grows t t := fun _ _ h => h

omit [Casing] in
theorem Grows.trans {t t' t'' : Suppressions} (h : Grows t t') (h' : Grows t' t'') : Grows t t'' :=
  fun k r hr => h' k r (h k r hr)

theorem recordSuppression_grows {clock : String → String} {t t' : Suppressions} {address : Json}
    {reason : String} {eventId : Json} {inserted : Bool}
    (h : recordSuppression clock t address reason eventId = some (t', inserted)) : Grows t t' := by
  unfold recordSuppression at h
  split at h
  · split at h
    · split at h
      · next hins =>
          cases h
          exact fun k r hr => Table.find_insert_of_some hins hr
      · cases h
        exact Grows.refl t
    · cases h
  · cases h

theorem recordRecipients_grows {clock : String → String} {reason : String} {eventId : Json}
    {recipients : List Json} {t : Suppressions} :
    Grows t (recordRecipients clock reason eventId recipients t).1 := by
  induction recipients generalizing t with
  | nil => exact Grows.refl t
  | cons recipient rest ih =>
      unfold recordRecipients
      split
      · exact Grows.refl t
      · split
        · split
          · exact ih
          · next hrecord => exact (recordSuppression_grows hrecord).trans ih
        · exact ih

theorem handleSnsMessage_grows {R : Runtime} {clock : String → String} {t : Suppressions}
    {message eventId : Json} : Grows t (handleSnsMessage R clock t message eventId).1 := by
  unfold handleSnsMessage
  split
  · split
    · exact Grows.refl t
    · exact Grows.refl t
    · split
      · exact Grows.refl t
      · exact Grows.refl t
      · split
        · exact Grows.refl t
        · exact recordRecipients_grows
  · exact Grows.refl t

theorem handleRecords_grows {R : Runtime} {clock : String → String} {tally : Tally}
    {records : List Json} {t : Suppressions} :
    Grows t (handleRecords R clock tally records t).1 := by
  induction records generalizing tally t with
  | nil => exact Grows.refl t
  | cons r rest ih =>
      unfold handleRecords
      split
      · exact Grows.refl t
      · next message messageId _ =>
          have hmessage : Grows t (handleSnsMessage R clock t message messageId).1 :=
            handleSnsMessage_grows
          split
          · next hresult =>
              rw [hresult] at hmessage
              exact hmessage
          · next hresult =>
              rw [hresult] at hmessage
              exact hmessage.trans ih

/-- **A batch keeps every row**, whether or not it raises. -/
theorem handleLambdaEvent_grows {R : Runtime} {clock : String → String} {t : Suppressions}
    {event : List (String × Json)} : Grows t (handleLambdaEvent R clock t event).1 := by
  unfold handleLambdaEvent
  split
  · exact Grows.refl t
  · exact handleRecords_grows

/-! ## When a batch does not raise

The entries of a batch the handler can walk through, level by level. -/

/-- A dict. -/
def isDict : Json → Bool
  | .obj _ => true
  | _ => false

/-- The value of a key, or the default, in a dict of any other value. -/
def valueOf (v : Json) (key : String) (default : Json) : Json := (get v key default).getD default

/-- A timestamp that can be cut to ten characters, or is replaced: a falsy value, a text or a
list. -/
def timestampOk : Json → Bool
  | .str _ | .arr _ => true
  | v => !truthy v

/-- A recipient that can be asked for its address: a falsy value or a dict. -/
def recipientOk (recipient : Json) : Bool := !truthy recipient || isDict recipient

/-- Recipients that can be gone through: a list of such recipients, or a text or dict
without characters in it or in its keys. -/
def recipientsOk : Json → Bool
  | .arr xs => xs.all recipientOk
  | .str s => s = ""
  | .obj ms => ms.all fun m => m.1 = ""
  | _ => false

/-- The bounce or complaint of an envelope: a dict with such a timestamp and recipients. -/
def detailOk (recipientsKey : String) (detail : Json) : Bool :=
  isDict detail && timestampOk (valueOf detail "timestamp" (.str "")) &&
    recipientsOk (valueOf detail recipientsKey (.arr []))

/-- An envelope: a dict whose bounce, if it is one, is a dict and if permanent of that shape;
and whose complaint, if it is one, is of that shape. -/
def envelopeOk (envelope : Json) : Bool :=
  isDict envelope &&
    if isText (valueOf envelope "notificationType" .null) "Bounce" then
      let bounce := valueOf envelope "bounce" (.obj [])
      isDict bounce && (!isText (valueOf bounce "bounceType" (.str "Unknown")) "Permanent" ||
        detailOk "bouncedRecipients" bounce)
    else !isText (valueOf envelope "notificationType" .null) "Complaint" ||
      detailOk "complainedRecipients" (valueOf envelope "complaint" (.obj []))

/-- A message: a text that is no JSON, or JSON of an envelope of that shape. -/
def messageOk (R : Runtime) : Json → Bool
  | .str body => match R.loads body with
    | .ok envelope => envelopeOk envelope
    | .decodeError => true
    | .raised => false
  | _ => false

/-- A record: a dict whose `Sns` is a dict with such a message. -/
def recordOk (R : Runtime) (record : Json) : Bool :=
  isDict record && isDict (valueOf record "Sns" (.obj [])) &&
    messageOk R (valueOf (valueOf record "Sns" (.obj [])) "Message" (.str ""))

/-- A batch the handler can walk through: its records are a list of such records, or there is
nothing to go through. -/
def Walkable (R : Runtime) (event : List (String × Json)) : Bool :=
  match (event.lookup "Records").getD (.arr []) with
  | .arr records => records.all (recordOk R)
  | .str s => s = ""
  | .obj ms => ms.isEmpty
  | _ => false

omit [Casing] in
theorem get_of_isDict {v : Json} (h : isDict v = true) (key : String) (default : Json) :
    get v key default = some (valueOf v key default) := by
  cases v with
  | obj ms => rfl
  | _ => cases h

omit [Casing] in
theorem get_of_not_isDict {v : Json} (h : ¬ isDict v = true) (key : String) (default : Json) :
    get v key default = none := by
  cases v with
  | obj ms => exact absurd rfl h
  | _ => rfl

omit [Casing] in
theorem eventDate_isSome_iff {R : Runtime} {detail : Json} (h : isDict detail = true) :
    (eventDate R detail).isSome = timestampOk (valueOf detail "timestamp" (.str "")) := by
  rw [eventDate, get_of_isDict h, Option.bind_some]
  cases valueOf detail "timestamp" (.str "") with
  | str s => simp only [timestampOk]; split <;> rfl
  | arr xs => simp only [timestampOk]; split <;> rfl
  | _ =>
      simp only [timestampOk]
      split
      · next htruthy => simp [htruthy]
      · next htruthy => simp [htruthy]

theorem recordRecipients_isSome_iff {clock : String → String} {reason : String} {eventId : Json}
    {recipients : List Json} {t : Suppressions} :
    (recordRecipients clock reason eventId recipients t).2.isSome = recipients.all recipientOk := by
  induction recipients generalizing t with
  | nil => rfl
  | cons recipient rest ih =>
      have haddress : (recipientAddress recipient).isSome = recipientOk recipient := by
        unfold recipientAddress recipientOk
        cases htruthy : truthy recipient with
        | false => rfl
        | true =>
            cases hdict : isDict recipient with
            | true => simp [get_of_isDict hdict]
            | false => simp [get_of_not_isDict (v := recipient) (by simp [hdict])]
      rw [List.all_cons, ← haddress]
      unfold recordRecipients
      cases recipientAddress recipient with
      | none => rfl
      | some address =>
          simp only [Option.isSome_some, Bool.true_and]
          split
          · split
            · exact ih
            · next t' inserted _ =>
                simp only [Option.isSome_map]
                exact ih
          · exact ih

/-- What a notice of the handler says about its message: `none` raises, `some none` is passed
over. -/
def noticeOk : Option (Option Notice) → Bool
  | none => false
  | some none => true
  | some (some notice) => recipientsOk notice.recipients

omit [Casing] in
/-- The bounce or complaint of an envelope, read. -/
theorem noticeOk_detail {R : Runtime} {kind key : String} {detail : Json} :
    noticeOk (do
      let date ← eventDate R detail
      let recipients ← get detail key (.arr [])
      return some ⟨kind ++ date, recipients⟩) = detailOk key detail := by
  unfold detailOk
  cases hdict : isDict detail with
  | false =>
      have hget := get_of_not_isDict (v := detail) (by simp [hdict])
      simp [eventDate, hget, noticeOk]
  | true =>
      rw [← eventDate_isSome_iff hdict, get_of_isDict hdict]
      cases eventDate R detail with
      | none => rfl
      | some date => rfl

omit [Casing] in
theorem noticeOk_readNotice {R : Runtime} {envelope : Json} :
    noticeOk (readNotice R envelope) = envelopeOk envelope := by
  unfold readNotice envelopeOk
  cases hdict : isDict envelope with
  | false =>
      have hget := get_of_not_isDict (v := envelope) (by simp [hdict])
      simp [hget, noticeOk]
  | true =>
      simp only [get_of_isDict hdict, Option.bind_eq_bind, Option.bind_some, Bool.true_and]
      split
      · -- a bounce
        cases hbounce : isDict (valueOf envelope "bounce" (.obj [])) with
        | false =>
            have hget := get_of_not_isDict (v := valueOf envelope "bounce" (.obj []))
              (by simp [hbounce])
            simp [hget, noticeOk]
        | true =>
            rw [get_of_isDict hbounce, Option.bind_some]
            split
            · next hpermanent =>
                rw [hpermanent]
                exact noticeOk_detail
            · next hpermanent =>
                rw [Bool.not_eq_true] at hpermanent
                rw [hpermanent]
                rfl
      · split
        · next hcomplaint =>
            rw [hcomplaint]
            exact noticeOk_detail
        · next hcomplaint =>
            rw [Bool.not_eq_true] at hcomplaint
            rw [hcomplaint]
            rfl

omit [Casing] in
theorem recipientOk_str (s : String) : recipientOk (.str s) = decide (s = "") := by
  simp [recipientOk, truthy, isDict]

omit [Casing] in
/-- Of the characters of a text none is a recipient that can be asked. -/
theorem all_recipientOk_chars (s : String) :
    (s.toList.map fun c => Json.str c.toString).all recipientOk = decide (s = "") := by
  cases hchars : s.toList with
  | nil =>
      have hs : s = "" := String.toList_injective hchars
      simp [hs]
  | cons c cs =>
      have hs : s ≠ "" := by
        intro h
        rw [h] at hchars
        cases hchars
      simp [recipientOk_str, hs]

theorem handleSnsMessage_isSome {R : Runtime} {clock : String → String} {t : Suppressions}
    {message eventId : Json} :
    (handleSnsMessage R clock t message eventId).2.isSome = messageOk R message := by
  unfold handleSnsMessage messageOk
  cases message with
  | str body =>
      dsimp only
      cases R.loads body with
      | decodeError => rfl
      | raised => rfl
      | ok envelope =>
          dsimp only
          rw [← noticeOk_readNotice (R := R)]
          cases readNotice R envelope with
          | none => rfl
          | some notice =>
              cases notice with
              | none => rfl
              | some notice =>
                  obtain ⟨reason, recipients⟩ := notice
                  cases recipients with
                  | arr xs => exact recordRecipients_isSome_iff
                  | str s =>
                      dsimp only [iterate, noticeOk, recipientsOk]
                      rw [recordRecipients_isSome_iff, all_recipientOk_chars]
                  | obj ms =>
                      dsimp only [iterate, noticeOk, recipientsOk]
                      rw [recordRecipients_isSome_iff, List.all_map]
                      exact List.all_congr rfl fun m => recipientOk_str m.1
                  | _ => rfl
  | _ => rfl

theorem handleRecords_isSome {R : Runtime} {clock : String → String} {tally : Tally}
    {records : List Json} {t : Suppressions} :
    (handleRecords R clock tally records t).2.isSome = records.all (recordOk R) := by
  induction records generalizing tally t with
  | nil => rfl
  | cons r rest ih =>
      rw [List.all_cons]
      unfold handleRecords
      cases hread : readRecord r with
      | none =>
          have hbad : recordOk R r = false := by
            unfold readRecord at hread
            unfold recordOk
            cases hdict : isDict r with
            | false => rfl
            | true =>
                cases hsns : isDict (valueOf r "Sns" (.obj [])) with
                | false => rfl
                | true => simp [get_of_isDict hdict, get_of_isDict hsns] at hread
          rw [hbad]
          rfl
      | some found =>
          obtain ⟨message, messageId⟩ := found
          have hgood : recordOk R r = messageOk R message := by
            unfold readRecord at hread
            obtain ⟨sns, hsns, hread⟩ := Option.bind_eq_some_iff.mp hread
            obtain ⟨m, hm, hread⟩ := Option.bind_eq_some_iff.mp hread
            obtain ⟨id, -, hread⟩ := Option.bind_eq_some_iff.mp hread
            obtain ⟨rfl, rfl⟩ := Prod.mk.inj (Option.some.inj hread)
            have hdict : isDict r = true := by
              by_contra h
              rw [get_of_not_isDict h] at hsns
              cases hsns
            obtain rfl := Option.some.inj ((get_of_isDict hdict _ _).symm.trans hsns)
            have hdict' : isDict (valueOf r "Sns" (.obj [])) = true := by
              by_contra h
              rw [get_of_not_isDict h] at hm
              cases hm
            obtain rfl := Option.some.inj ((get_of_isDict hdict' _ _).symm.trans hm)
            rw [recordOk, hdict, hdict', Bool.true_and, Bool.true_and]
          have hmessage : (handleSnsMessage R clock t message messageId).2.isSome =
              messageOk R message := handleSnsMessage_isSome
          rw [hgood, ← hmessage]
          dsimp only
          generalize handleSnsMessage R clock t message messageId = result
          obtain ⟨t', n⟩ := result
          cases n with
          | none => rfl
          | some n => exact ih

/-- **A batch does not raise exactly when it can be walked through.** -/
theorem handleLambdaEvent_isSome {R : Runtime} {clock : String → String} {t : Suppressions}
    {event : List (String × Json)} :
    (handleLambdaEvent R clock t event).2.isSome = Walkable R event := by
  have hkey : ∀ s : String, recordOk R (.str s) = false := fun _ => rfl
  unfold handleLambdaEvent Walkable
  cases (event.lookup "Records").getD (.arr []) with
  | arr records => exact handleRecords_isSome
  | str s =>
      dsimp only [iterate]
      rw [handleRecords_isSome]
      cases hchars : s.toList with
      | nil =>
          have hs : s = "" := String.toList_injective hchars
          simp [hs]
      | cons c cs =>
          have hs : s ≠ "" := by
            intro h
            rw [h] at hchars
            cases hchars
          simp [hkey, hs]
  | obj ms =>
      dsimp only [iterate]
      rw [handleRecords_isSome]
      cases ms with
      | nil => rfl
      | cons m ms => simp [hkey]
  | _ => rfl

end EighthLayer.Transactional
