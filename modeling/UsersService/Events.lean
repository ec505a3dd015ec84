import UsersService.Store.Table

/-! The Kafka publisher of `internal/events`, and what its messages say. A change to a user is
announced as an `Event`: its type, a fresh id, the user, the time and the schema version.
`Publish` writes it as one Kafka message whose value is the event's JSON, keyed by the event id,
with the id, the type and the version repeated as headers. The user inside is marshalled with
its own tags, so the password never leaves the service: a consumer reads from a message the kind
of change and the user's JSON document, whatever id and time the event got.

Replaying those documents in order over a directory of profiles (every field of the document
but `UpdatedAt`) is the meaning of the event stream; `Service.Runs` shows that it follows the
store. -/

namespace UsersService

/-! ### The publisher -/

/-- The `events.EventType` string of a kind of change. -/
def EventType.text : EventType → String
  | .created => "created"
  | .updated => "updated"
  | .deleted => "deleted"

/-- `events.Event`. -/
structure Event where
  type : EventType
  id : String
  user : User
  timestamp : Nat
  version : String

/-- The JSON document `json.Marshal(*event)` writes: the user as its own `json.Marshal` writes
it. -/
structure EventJson where
  type : String
  id : String
  user : UserJson
  timestamp : Nat
  version : String
  deriving DecidableEq

/-- `json.Marshal(*event)`. -/
def Event.marshal (e : Event) : EventJson :=
  ⟨e.type.text, e.id, e.user.marshal, e.timestamp, e.version⟩

/-- `kafka.Message` as `Publish` fills it. -/
structure KafkaMessage where
  key : String
  value : EventJson
  headers : List (String × String)
  deriving DecidableEq

namespace UserEventPublisher

/-- `createUserEvent`; `eventId` and `now` are the values `uuid.New()` and `time.Now()` return. -/
def createUserEvent (user : User) (eventType : EventType) (eventId : UUID) (now : Nat) : Event :=
  ⟨eventType, eventId.toString, user, now, "1.0"⟩

/-- The message `Publish` writes for an event. -/
def publish (event : Event) : KafkaMessage :=
  ⟨event.id, event.marshal,
    [("event-id", event.id), ("event-type", event.type.text),
      ("event-schema-version", event.version)]⟩

end UserEventPublisher

/-! ### Reading a message back -/

/-- The kind of change a `type` string names. -/
def EventType.ofText : String → Option EventType
  | "created" => some .created
  | "updated" => some .updated
  | "deleted" => some .deleted
  | _ => none

@[simp] theorem EventType.ofText_text (kind : EventType) : EventType.ofText kind.text = some kind := by
  cases kind <;> rfl

/-- What a consumer reads from a message: the kind of change its payload names, and the user's
document. -/
def KafkaMessage.decode (m : KafkaMessage) : Option (EventType × UserJson) :=
  (EventType.ofText m.value.type).map fun kind => (kind, m.value.user)

/-- Whatever id and time an event gets, its message is keyed by the event id, names the kind of
change in its payload and its `event-type` header alike, and decodes to the kind of change and
the user's document. -/
theorem decode_publish (user : User) (kind : EventType) (eventId : UUID) (now : Nat) :
    let m := UserEventPublisher.publish (UserEventPublisher.createUserEvent user kind eventId now)
    m.key = eventId.toString ∧ m.headers.lookup "event-type" = some m.value.type ∧
      m.decode = some (kind, user.marshal) :=
  ⟨rfl, rfl, by simp [UserEventPublisher.publish, UserEventPublisher.createUserEvent,
    KafkaMessage.decode, Event.marshal]⟩

/-- The documents of a sequence of calls to the publisher. -/
def documents (events : List (EventType × User)) : List (EventType × UserJson) :=
  events.map fun e => (e.1, e.2.marshal)

/-- The messages the publisher writes for a sequence of calls, the `i`-th event getting the values
`fresh i` of `uuid.New()` and `time.Now()`. -/
def UserEventPublisher.messages (fresh : Nat → UUID × Nat) (events : List (EventType × User)) :
    List KafkaMessage :=
  events.enum.map fun (i, kind, user) =>
    UserEventPublisher.publish (UserEventPublisher.createUserEvent user kind (fresh i).1 (fresh i).2)

/-- Whatever ids and times the events get, their messages decode to the documents of the calls. -/
theorem decode_messages (fresh : Nat → UUID × Nat) (events : List (EventType × User)) :
    (UserEventPublisher.messages fresh events).filterMap KafkaMessage.decode = documents events := by
  have hdecode : (KafkaMessage.decode ∘ fun (p : Nat × EventType × User) =>
      UserEventPublisher.publish (UserEventPublisher.createUserEvent p.2.2 p.2.1 (fresh p.1).1
        (fresh p.1).2)) = some ∘ fun p => (p.2.1, p.2.2.marshal) :=
    funext fun ⟨_, kind, user⟩ => (decode_publish user kind _ _).2.2
  rw [UserEventPublisher.messages, List.filterMap_map, hdecode, List.filterMap_eq_map, documents]
  conv_rhs => rw [← List.enum_map_snd events, List.map_map]
  rfl

/-! ### What the events say -/

/-- What a consumer learns of a user from its document and can rely on: every field but
`UpdatedAt`, which the event of an update carries from before the update. -/
structure Profile where
  id : UUID
  firstName : String
  lastName : String
  nickname : String
  email : String
  country : String
  createdAt : Nat
  deriving DecidableEq

/-- The profile in a document. -/
def UserJson.profile (p : UserJson) : Profile :=
  ⟨p.id, p.firstName, p.lastName, p.nickname, p.email, p.country, p.createdAt⟩

/-- A consumer's directory after one decoded event: the user's profile under its id, or no entry
after a deletion. -/
def applyEvent (view : UUID → Option Profile) : EventType × UserJson → UUID → Option Profile
  | (.deleted, doc) => Function.update view doc.id none
  | (_, doc) => Function.update view doc.id (some doc.profile)

/-- The directory after a sequence of decoded events. -/
def replay (view : UUID → Option Profile) (events : List (EventType × UserJson)) :
    UUID → Option Profile :=
  events.foldl applyEvent view

@[simp] theorem replay_nil (view : UUID → Option Profile) : replay view [] = view := rfl

theorem replay_append (view : UUID → Option Profile) (e₁ e₂ : List (EventType × UserJson)) :
    replay view (e₁ ++ e₂) = replay (replay view e₁) e₂ :=
  List.foldl_append _ _ _ _

/-- The store's directory: the profile of the row with each id. -/
def Table.profiles (t : Table) (i : UUID) : Option Profile :=
  (t.select (.id i)).map fun r => r.marshal.profile

end UsersService
