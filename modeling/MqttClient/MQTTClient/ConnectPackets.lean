import MqttClient.MQTTClient.Connections
import MqttClient.MQTTPacket.RequestBodies

/-! # The CONNECT packets

What a CONNECT packet carries is read from the record of the client, which outlives the
connect call that it belongs to.
-/

namespace MqttClient.MQTTClient

open Foundation LinkedList MQTTPacket

def ConnectOptions.body (clientID : CString) (options : ConnectOptions) : List UInt8 :=
  let flags := (if options.username.isSome then 128 else 0) +
    if options.password.isSome then 64 else 0
  writeUTF (.ofBlock [0x4d, 0x51, 0x54, 0x54]) ++ writeChar (toChar options.mqttVersion) ++
    writeChar (UInt8.ofNat flags) ++ writeInt options.keepAliveInterval ++ writeUTF clientID ++
    (options.username.map writeUTF).getD [] ++
    (options.password.map fun password => writeData password.bytes).getD []

def lastOptions (m : Nat) (events : List Event) : Option ConnectOptions :=
  events.foldl (fun last event =>
    match event with
    | .connectCalled client options => if client = m then some options else last
    | _ => last) none

structure ConnectOptions.Says (options : ConnectOptions) (fields : ConnectFields) : Prop where
  version : (fields.level.toNat : Int) = options.mqttVersion
  keepAlive : (fields.keepAlive : Int) = options.keepAliveInterval
  username : fields.username = options.username.map CString.bytes
  password : fields.password = options.password.map CString.bytes

structure ConnectOptions.Carried (options : ConnectOptions) (clientID : CString)
    (body : List UInt8) : Prop where
  alone : body = options.body clientID
  decoded : ∃ fields, connectFields.toEnd body = some fields ∧ fields.clientId = clientID.bytes ∧
    options.Says fields

/-- A CONNECT packet depends only on its client and the call that sends it, and carries the
options of this call. -/
def CarriesOptions (clientID : Nat → CString) (past : List Event) (event : Event) : Prop :=
  ∀ m body, event = .connectSent m body →
    ∃ options, lastOptions m past = some options ∧ options.Carried (clientID m) body

def ConnectOptions.Short (options : ConnectOptions) : Prop :=
  (∀ username ∈ options.username, username.bytes.length ≤ 65535) ∧
    ∀ password ∈ options.password, password.bytes.length ≤ 65535

instance (options : ConnectOptions) : Decidable options.Short :=
  inferInstanceAs (Decidable ((∀ _ ∈ (_ : Option _), _) ∧ ∀ _ ∈ (_ : Option _), _))

structure ConnectOptions.Carriable (options : ConnectOptions) : Prop where
  unasked : options.keepAliveInterval = 0
  version : 0 ≤ options.mqttVersion ∧ options.mqttVersion ≤ 255
  short : options.Short

instance (options : ConnectOptions) : Decidable options.Carriable :=
  decidable_of_iff (options.keepAliveInterval = 0 ∧
      (0 ≤ options.mqttVersion ∧ options.mqttVersion ≤ 255) ∧ options.Short)
    ⟨fun ⟨unasked, version, short⟩ => ⟨unasked, version, short⟩,
      fun ⟨unasked, version, short⟩ => ⟨unasked, version, short⟩⟩

/-- A connect call has options that can be carried, and leaves out a user name or a password
only on a client that has none; and a client id has a length that fits in two bytes. -/
def OptionsComplete (action : Action) (before : System) : Prop :=
  match action with
  | .create clientId => clientId.bytes.length ≤ 65535
  | .connect m options _ => options.Carriable ∧
      (options.username = none → (before.library.client m).username = .null) ∧
      (options.password = none → (before.library.client m).password = .null)
  | _ => True

instance (action : Action) (before : System) : Decidable (OptionsComplete action before) :=
  match action with
  | .create _ => inferInstanceAs (Decidable (_ ≤ _))
  | .connect _ _ _ => inferInstanceAs (Decidable (_ ∧ (_ → _) ∧ (_ → _)))
  | .destroy _ | .setCallbacks _ _ _ | .publish _ _ | .subscribe _ _ _
  | .connectStep _ | .loopStep _ _ => .isTrue trivial

structure Credentials where
  clientID : CString
  username : CharPtr
  password : CharPtr
  passwordlen : Int
  keepAliveInterval : Int

def credentials (client : Clients) : Credentials :=
  ⟨client.clientID, client.username, client.password, client.passwordlen,
    client.keepAliveInterval⟩

def charPtr : Option CString → CharPtr
  | none => .null
  | some string => .string string

structure Presents (options : ConnectOptions) (credentials : Credentials) : Prop where
  username : credentials.username = charPtr options.username
  password : credentials.password = charPtr options.password
  passwordlen : ∀ password, options.password = some password →
    credentials.passwordlen = password.bytes.length
  keepAliveInterval : credentials.keepAliveInterval = 0
  clientID : credentials.clientID.bytes.length ≤ 65535
  carriable : options.Carriable

section Client

variable {client changed : Clients} {options : ConnectOptions}

theorem Presents.carried (presents : Presents options (credentials client)) {body : List UInt8}
    (built : connectBody client options.mqttVersion = some body) :
    options.Carried client.clientID body := by
  have username := presents.username
  have password := presents.password
  have keepAliveInterval := presents.keepAliveInterval
  have carriable := presents.carriable
  simp only [credentials] at username password keepAliveInterval
  have usernames : optionalString client.username = some options.username := by
    rw [username]
    cases options.username <;> rfl
  have passwords : optionalString client.password = some options.password := by
    rw [password]
    cases options.password <;> rfl
  have whole {result : Type} (write : List UInt8 → result) : (options.password.map fun password =>
      write (password.bytes.take client.passwordlen.toNat)) =
        options.password.map fun password => write password.bytes := by
    refine Option.map_congr fun password given => ?_
    have length := presents.passwordlen password given
    simp only [credentials] at length
    rw [length, Int.toNat_natCast, List.take_length]
  have decoded := connectFields_body built usernames passwords
    (by rw [keepAliveInterval]; decide) presents.clientID carriable.short.1
    fun string given => by
      have length := presents.passwordlen string given
      simp only [credentials] at length
      rw [length]
      exact_mod_cast carriable.short.2 string given
  constructor
  · rw [MQTTPacket.connectBody, usernames, passwords] at built
    simp only [Option.bind_eq_bind, Option.bind_some, whole, keepAliveInterval] at built
    rw [← Option.some.inj built, ConnectOptions.body, carriable.unasked]
    rfl
  · refine ⟨_, decoded, rfl, ?_, ?_, rfl, ?_⟩
    · have version := carriable.version
      rw [recordFields, toNat_toChar version.1 (by omega)]
    · rw [recordFields, keepAliveInterval, carriable.unasked]
      rfl
    · exact whole id

theorem replaceString_eq {old result : CharPtr} {new : Option CString}
    (replaced : replaceString old new = some result) (complete : new = none → old = .null) :
    result = charPtr new := by
  cases new with
  | none =>
      rw [complete rfl] at replaced
      cases replaced
      rfl
  | some string =>
      cases old <;> cases replaced <;> rfl

theorem applyOptions_presents (keepAliveInterval : client.keepAliveInterval = 0)
    (clientID : client.clientID.bytes.length ≤ 65535) (carriable : options.Carriable)
    (username : options.username = none → client.username = .null)
    (password : options.password = none → client.password = .null)
    (applied : applyOptions options client = some changed) :
    Presents options (credentials changed) ∧ changed.clientID = client.clientID := by
  rcases Option.bind_eq_some_iff.mp applied with ⟨usernames, replaced, rest⟩
  rcases Option.bind_eq_some_iff.mp rest with ⟨passwords, replacedPassword, same⟩
  cases same
  refine ⟨⟨replaceString_eq replaced username, replaceString_eq replacedPassword password,
    fun given here => ?_, keepAliveInterval, clientID, carriable⟩, rfl⟩
  have short := carriable.short.2 given here
  change (options.password.map _).getD _ = _
  rw [here, Option.map_some, Option.getD_some]
  exact toInt_of_lt (by omega) (by omega)

end Client

/-! ## Events about CONNECT packets -/

def Event.Uncalled : Event → Prop
  | .connectCalled _ _ => False
  | _ => True

def Event.Unconnected : Event → Prop
  | .connectCalled _ _ | .connectSent _ _ => False
  | _ => True

theorem Event.Unconnected.uncalled {event : Event} (unconnected : event.Unconnected) :
    event.Uncalled := by
  cases event with
  | connectCalled => exact unconnected
  | _ => trivial

section Events

variable {past events : List Event} {m : Nat} {clientID : Nat → CString}

theorem lastOptions_append (uncalled : ∀ event ∈ events, event.Uncalled) :
    lastOptions m (past ++ events) = lastOptions m past := by
  induction events generalizing past with
  | nil => rw [List.append_nil]
  | cons event events induction =>
      rcases List.forall_mem_cons.mp uncalled with ⟨first, rest⟩
      rw [List.append_cons, induction rest, lastOptions, List.foldl_append]
      cases event with
      | connectCalled => exact absurd first id
      | _ => rfl

theorem lastOptions_called (m : Nat) (past : List Event) (client : Nat) (options : ConnectOptions) :
    lastOptions m (past ++ [.connectCalled client options]) =
      if client = m then some options else lastOptions m past := by
  rw [lastOptions, List.foldl_append]
  rfl

theorem lastOptions_isSome_append {options : ConnectOptions}
    (called : lastOptions m past = some options) (events : List Event) :
    ∃ later, lastOptions m (past ++ events) = some later := by
  induction events generalizing past options with
  | nil =>
      rw [List.append_nil]
      exact ⟨options, called⟩
  | cons event events induction =>
      rw [List.append_cons]
      have first : ∃ later, lastOptions m (past ++ [event]) = some later := by
        cases event with
        | connectCalled client latest =>
            rw [lastOptions_called]
            split
            · exact ⟨latest, rfl⟩
            · exact ⟨options, called⟩
        | _ =>
            rw [lastOptions_append (by simp [Event.Uncalled])]
            exact ⟨options, called⟩
      rcases first with ⟨later, called⟩
      exact induction called

theorem carries_append (carries : Machine.Always (CarriesOptions clientID) past)
    (uncalled : ∀ event ∈ events, event.Uncalled)
    (sent : ∀ client body, .connectSent client body ∈ events →
      ∃ options, lastOptions client past = some options ∧
        options.Carried (clientID client) body) :
    Machine.Always (CarriesOptions clientID) (past ++ events) := by
  refine carries.append fun earlier event later split client body same => ?_
  subst same split
  rcases sent client body (List.mem_append_right _ List.mem_cons_self) with
    ⟨options, called, same⟩
  refine ⟨options, ?_, same⟩
  rwa [lastOptions_append fun event here => uncalled event (List.mem_append_left _ here)]

theorem carries_congr {other : Nat → CString}
    (carries : Machine.Always (CarriesOptions clientID) past)
    (same : ∀ m options, lastOptions m past = some options → other m = clientID m) :
    Machine.Always (CarriesOptions other) past := by
  intro earlier event later split m body sent
  rcases carries earlier event later split m body sent with ⟨options, called, carried⟩
  rcases lastOptions_isSome_append called (event :: later) with ⟨latest, here⟩
  rw [← split] at here
  exact ⟨options, called, by rwa [same m latest here]⟩

end Events

section Steps

variable {before after : Library} {m : Nat} {events : List Event}

theorem Event.OfCycle.unconnected {event : Event} (ofCycle : event.OfCycle) :
    event.Unconnected := by
  cases event with
  | connectCalled | connectSent => exact ofCycle
  | _ => trivial

theorem Looped.unconnected {loop next : LoopState}
    (looped : Looped before loop (events, next, after)) : ∀ event ∈ events, event.Unconnected := by
  cases looped with
  | cycled spec => exact fun event here => (spec.ofCycle event here).unconnected
  | answered => simp [Event.Unconnected]
  | started | selected | lost | called | posted => exact List.forall_mem_nil _

theorem System.conclude_cons (event : Event) (outcome : ConnectOutcome) (system : System) :
    conclude m (event :: events) outcome system =
      (event :: (conclude m events outcome system).1,
        (conclude m events outcome system).2) := by
  cases outcome <;> rfl

theorem stable_credentials : Stable fun object => credentials object.c :=
  ⟨fun _ _ _ _ => rfl, fun _ _ _ => rfl, fun _ _ _ _ _ _ _ => rfl, fun _ _ _ => rfl,
    fun _ _ => rfl⟩

structure Unspoiled (credentials : Credentials) : Prop where
  username : credentials.username ≠ .freed
  password : credentials.password ≠ .freed
  keepAliveInterval : credentials.keepAliveInterval = 0
  clientID : credentials.clientID.bytes.length ≤ 65535

theorem Presents.unspoiled {options : ConnectOptions} {credentials : Credentials}
    (presents : Presents options credentials) : Unspoiled credentials where
  username := by
    rw [presents.username]
    cases options.username <;> exact CharPtr.noConfusion
  password := by
    rw [presents.password]
    cases options.password <;> exact CharPtr.noConfusion
  keepAliveInterval := presents.keepAliveInterval
  clientID := presents.clientID

end Steps

structure Presented (past : List Event) (system : System) : Prop where
  clients : ∀ m, Unspoiled (credentials (system.library.client m))
  last : ∀ m options, lastOptions m past = some options →
    m < system.library.created ∧ Presents options (credentials (system.library.client m))
  calling : ∀ call, system.connecting = some call →
    ∃ options, lastOptions call.m past = some options ∧ options.mqttVersion = call.mqttVersion
  carries : Machine.Always (CarriesOptions fun m => (system.library.client m).clientID) past

section Run

variable {past events : List Event} {before after : System}

theorem Presented.of_holds (presented : Presented past before)
    (holds : Holds (fun object => credentials object.c) before.library after.library)
    (created : before.library.created ≤ after.library.created)
    (uncalled : ∀ event ∈ events, event.Uncalled)
    (sent : ∀ client body, .connectSent client body ∈ events → ∃ options,
      lastOptions client past = some options ∧
        options.Carried (before.library.client client).clientID body)
    (calling : ∀ call, after.connecting = some call → ∃ other, before.connecting = some other ∧
      call.m = other.m ∧ call.mqttVersion = other.mqttVersion) :
    Presented (past ++ events) after := by
  have same (m : Nat) : credentials (after.library.client m) =
      credentials (before.library.client m) := holds.1 m
  have clientID (m : Nat) : (after.library.client m).clientID =
      (before.library.client m).clientID := congrArg Credentials.clientID (same m)
  constructor
  · intro m
    rw [same]
    exact presented.clients m
  · intro m options called
    rw [lastOptions_append uncalled] at called
    rw [same]
    exact ⟨lt_of_lt_of_le (presented.last m options called).1 created,
      (presented.last m options called).2⟩
  · intro call here
    rcases calling call here with ⟨other, here, m, mqttVersion⟩
    rw [lastOptions_append uncalled, m, mqttVersion]
    exact presented.calling other here
  · simp only [clientID]
    exact carries_append presented.carries uncalled sent

theorem Presented.create (presented : Presented past before) (wellFormed : before.WellFormed)
    {clientId : CString} (short : clientId.bytes.length ≤ 65535) :
    Presented past { before with library := create clientId before.library } := by
  have creates := create_spec wellFormed.registered clientId
  have others {m : Nat} (different : m ≠ before.library.created) :
      (MQTTClient.create clientId before.library).client m = before.library.client m := by
    rw [Library.client, creates.objects, Function.update_of_ne different]
    rfl
  constructor
  · intro m
    by_cases here : m = before.library.created
    · dsimp only
      rw [Library.client, creates.objects, here, Function.update_self]
      exact ⟨CharPtr.noConfusion, CharPtr.noConfusion, rfl, short⟩
    · dsimp only
      rw [others here]
      exact presented.clients m
  · intro m options called
    rcases presented.last m options called with ⟨old, presents⟩
    dsimp only
    rw [creates.created, others (Nat.ne_of_lt old)]
    exact ⟨Nat.lt_succ_of_lt old, presents⟩
  · exact presented.calling
  · refine carries_congr presented.carries fun m options called => ?_
    dsimp only
    rw [others (Nat.ne_of_lt (presented.last m options called).1)]

theorem System.conclude_calls {m : Nat} {outcome : ConnectOutcome} {system : System}
    {call : ConnectCall} (here : (conclude m events outcome system).2.connecting = some call) :
    outcome = .waits call := by
  cases outcome with
  | waits other =>
      cases here
      rfl
  | returns rc => cases here

theorem Connecting.continues {choice : Choice} {call next : ConnectCall}
    {before after : Library} (connecting : Connecting choice call before
      (events, .waits next, after)) : next.m = call.m ∧ next.mqttVersion = call.mqttVersion := by
  cases connecting with
  | waited waited => exact ⟨rfl, rfl⟩
  | sent phase sent reconnects descriptors outcome_eq =>
      rcases outcome_eq with same | same
      · cases same
      · cases same
        exact ⟨rfl, rfl⟩

theorem Connecting.sends {choice : Choice} {call : ConnectCall} {outcome : ConnectOutcome}
    {before after : Library}
    (connecting : Connecting choice call before (events, outcome, after)) {event : Event}
    (here : event ∈ events) : event.Unconnected ∨ ∃ body, event = .connectSent call.m body ∧
      connectBody (before.client call.m) call.mqttVersion = some body := by
  cases connecting with
  | waited waited => exact .inl (waited.ofCycle event here).unconnected
  | sent phase sent reconnects descriptors outcome_eq => exact .inr (sent event here)
  | failed => cases here
  | finished => cases here

theorem Presented.connecting (presented : Presented past before) {choice : Choice}
    {call : ConnectCall} {outcome : ConnectOutcome} {library : Library}
    (calling : before.connecting = some call)
    (created : before.library.created ≤ library.created)
    (spec : Connecting choice call before.library (events, outcome, library)) :
    Presented (past ++ (System.conclude call.m events outcome
        { before with library := library }).1)
      (System.conclude call.m events outcome { before with library := library }).2 := by
  have holds := spec.holds stable_credentials
  refine presented.of_holds (by rwa [System.conclude_library])
    (by rwa [System.conclude_library]) (fun event here => ?_) (fun client body here => ?_)
    (fun next here => ?_)
  · rcases System.mem_conclude here with here | ⟨rc, rfl⟩
    · rcases spec.sends here with unconnected | ⟨body, rfl, _⟩
      · exact unconnected.uncalled
      · trivial
    · trivial
  · rcases System.mem_conclude here with here | ⟨rc, same⟩
    · rcases spec.sends here with unconnected | ⟨_, same, built⟩
      · exact absurd unconnected id
      · cases same
        rcases presented.calling call calling with ⟨options, called, mqttVersion⟩
        rw [← mqttVersion] at built
        exact ⟨options, called, (presented.last call.m options called).2.carried built⟩
    · cases same
  · have waits := System.conclude_calls here
    subst waits
    exact ⟨call, calling, spec.continues.1, spec.continues.2⟩

theorem Begun.applies {m : Nat} {options : ConnectOptions} {starts : Bool}
    {outcome : ConnectOutcome} {before after : Library}
    (begun : Begun m options before (events, starts, outcome, after)) :
    ∃ client, applyOptions options (before.client m) = some client ∧
      credentials (after.client m) = credentials client ∧
      (∀ other, other ≠ m → after.client other = before.client other) ∧
      after.created = before.created ∧
      ∀ event ∈ events, event.Unconnected ∨ ∃ body, event = .connectSent m body ∧
        connectBody client options.mqttVersion = some body := by
  have others {client : Clients} (reconnects : Reconnects m client before after) (other : Nat)
      (different : other ≠ m) : after.client other = before.client other :=
    congrArg MQTTClients.c (reconnects.objects_of_ne different)
  cases begun with
  | gaveUp applied reconnects descriptors =>
      exact ⟨_, applied, congrArg credentials reconnects.client_self, others reconnects,
        reconnects.created, List.forall_mem_nil _⟩
  | unopened applied reconnects descriptors =>
      exact ⟨_, applied, (congrArg credentials reconnects.client_self).trans rfl, others reconnects,
        reconnects.created, List.forall_mem_nil _⟩
  | opened applied fresh sent reconnects descriptors =>
      refine ⟨_, applied, (congrArg credentials reconnects.client_self).trans rfl,
        others reconnects, reconnects.created, fun event here => ?_⟩
      rcases List.mem_cons.mp here with rfl | here
      · exact .inl trivial
      · exact .inr (sent event here)

theorem Presented.began (presented : Presented past before) {m : Nat} {options : ConnectOptions}
    {starts : Bool} {outcome : ConnectOutcome} {library : Library} {loops : List LoopState}
    (old : m < before.library.created) (carriable : options.Carriable)
    (username : options.username = none → (before.library.client m).username = .null)
    (password : options.password = none → (before.library.client m).password = .null)
    (spec : Begun m options before.library (events, starts, outcome, library)) :
    Presented (past ++ (System.conclude m (.connectCalled m options :: events) outcome
        { before with library := library, loops := loops }).1)
      (System.conclude m (.connectCalled m options :: events) outcome
        { before with library := library, loops := loops }).2 := by
  rcases spec.applies with ⟨client, applied, same, others, created, sends⟩
  have unspoiled := presented.clients m
  rcases applyOptions_presents unspoiled.keepAliveInterval unspoiled.clientID carriable username
    password applied with ⟨presents, clientID⟩
  have clientIDs (other : Nat) : (library.client other).clientID =
      (before.library.client other).clientID := by
    by_cases here : other = m
    · rw [here]
      exact (congrArg Credentials.clientID same).trans clientID
    · rw [others other here]
  rw [System.conclude_cons, List.append_cons]
  -- behind the call itself
  have called (other : Nat) := lastOptions_called other past m options
  have carries : Machine.Always (CarriesOptions fun m => (library.client m).clientID)
      (past ++ [.connectCalled m options]) := by
    refine Machine.Always.append ?_ fun earlier event later split client body sent => ?_
    · simp only [clientIDs]
      exact presented.carries
    · subst sent
      have here : Event.connectSent client body ∈ [.connectCalled m options] := by
        rw [split]
        exact List.mem_append_right _ List.mem_cons_self
      simp at here
  have uncalled : ∀ event ∈ (System.conclude m events outcome
      { before with library := library, loops := loops }).1, event.Uncalled := by
    intro event here
    rcases System.mem_conclude here with here | ⟨rc, rfl⟩
    · rcases sends event here with unconnected | ⟨body, rfl, _⟩
      · exact unconnected.uncalled
      · trivial
    · trivial
  constructor
  · intro other
    rw [System.conclude_library]
    by_cases here : other = m
    · rw [here, same]
      exact presents.unspoiled
    · rw [others other here]
      exact presented.clients other
  · intro other latest here
    rw [lastOptions_append uncalled, called] at here
    rw [System.conclude_library]
    dsimp only
    rw [created]
    by_cases self : other = m
    · subst self
      rw [if_pos rfl] at here
      cases here
      exact ⟨old, by rwa [same]⟩
    · rw [if_neg (Ne.symm self)] at here
      rw [others other self]
      exact presented.last other latest here
  · intro call here
    have waits := System.conclude_calls here
    subst waits
    rcases spec.first with ⟨self, mqttVersion, _, _⟩
    rw [lastOptions_append uncalled, called, self, if_pos rfl, mqttVersion]
    exact ⟨options, rfl, rfl⟩
  · rw [System.conclude_library]
    refine carries_append carries uncalled fun other body here => ?_
    rcases System.mem_conclude here with here | ⟨rc, same⟩
    · rcases sends _ here with unconnected | ⟨_, same, built⟩
      · exact absurd unconnected id
      · cases same
        rw [called, if_pos rfl]
        have carried := presents.carried built
        rw [clientID, ← clientIDs] at carried
        exact ⟨options, rfl, carried⟩
    · cases same

theorem Stepped.presented {action : Action} {result : List Event × System}
    (stepped : Stepped before action result) (wellFormed : before.WellFormed)
    (complete : OptionsComplete action before) (presented : Presented past before) :
    Presented (past ++ result.1) result.2 := by
  have created := stepped.created_le wellFormed
  have quiet {events : List Event} {library : Library} {loops : List LoopState}
      (holds : Holds (fun object => credentials object.c) before.library library)
      (grows : before.library.created ≤ library.created)
      (unconnected : ∀ event ∈ events, event.Unconnected) :
      Presented (past ++ events) { before with library := library, loops := loops } :=
    presented.of_holds holds grows (fun event here => (unconnected event here).uncalled)
      (fun client body here => absurd (unconnected _ here) id)
      (fun call here => ⟨call, here, rfl, rfl⟩)
  rcases stepped.holds stable_credentials wellFormed with
    ⟨clientId, rfl, rfl⟩ | ⟨m, options, attempt, rfl⟩ | holds
  · rw [List.append_nil]
    exact presented.create wellFormed complete
  · cases stepped with
    | began member idle spec =>
        exact presented.began (wellFormed.registered.old _ member) complete.1 complete.2.1
          complete.2.2 spec
  · cases stepped with
    | created | destroyed | set | subscribed => exact quiet holds created (List.forall_mem_nil _)
    | published => exact quiet holds created (by simp [Event.Unconnected])
    | looped found alive spec => exact quiet holds created spec.unconnected
    | began member idle spec =>
        exact presented.began (wellFormed.registered.old _ member) complete.1 complete.2.1
          complete.2.2 spec
    | connecting here spec =>
        rw [System.conclude_library] at created
        exact presented.connecting here created spec

end Run

theorem Presented.start (inbound : SOCKET → RecvSource UInt8)
    (outbound : SOCKET → List WritevEvent) : Presented [] (.start inbound outbound) where
  clients _ := ⟨CharPtr.noConfusion, CharPtr.noConfusion, rfl, Nat.zero_le _⟩
  last _ _ called := nomatch called
  calling _ here := nomatch here
  carries := .nil

/-- In every run whose connect calls have options that can be carried, and leave out a user name
or a password only on a client that has none, every CONNECT packet carries the options of its own
call and depends on nothing else, and no call comes upon a string that has been freed. -/
theorem connectSent_carriesOptions {actions : List Action} {events : List Event} {final : System}
    {inbound : SOCKET → RecvSource UInt8} {outbound : SOCKET → List WritevEvent}
    (along : machine.Along OptionsComplete actions (.start inbound outbound))
    (ran : machine.run actions (.start inbound outbound) = some (events, final)) :
    Machine.Always (CarriesOptions fun m => (final.library.client m).clientID) events ∧
      ∀ m, (final.library.client m).username ≠ .freed ∧
        (final.library.client m).password ≠ .freed := by
  have presented := (run_invariant Presented
    (fun wellFormed presented complete stepped =>
      (step_spec stepped).presented wellFormed complete presented)
    (System.start_wellFormed inbound outbound) (.start inbound outbound) along ran).1
  exact ⟨presented.carries,
    fun m => ⟨(presented.clients m).username, (presented.clients m).password⟩⟩

def Event.connectBody : Event → Option (Nat × List UInt8)
  | .connectSent m body => some (m, body)
  | _ => none

theorem Event.connectBody_eq_some {event : Event} {m : Nat} {body : List UInt8} :
    event.connectBody = some (m, body) ↔ event = .connectSent m body := by
  cases event <;> simp [Event.connectBody]

def connectNow (options : ConnectOptions) : Action :=
  .connect 0 options ⟨false, false, .connected 3⟩

def namedOptions : ConnectOptions where
  username := some ⟨[0x75], by decide⟩
  password := some ⟨[0x70], by decide⟩

/-- The second call on a client sends its own user name and password. -/
theorem connectSent_carriesOptions_named :
    let actions : List Action := [.create (.ofBlock [0x63]),
      .connect 0 { username := some (.ofBlock [0x61]), password := some (.ofBlock []) }
        ⟨false, false, .failed (-1) (by decide) none⟩, connectNow namedOptions]
    ∃ events final body, machine.run actions (.receiving []) = some (events, final) ∧
      .connectSent 0 body ∈ events ∧ body.length = 19 ∧
      Machine.Always (CarriesOptions fun m => (final.library.client m).clientID) events ∧
      ∀ m, (final.library.client m).username ≠ .freed ∧
        (final.library.client m).password ≠ .freed := by
  intro actions
  have observed : (machine.run actions (.receiving [])).map (fun reached =>
      reached.1.filterMap fun event => event.connectBody.map fun sent => (sent.1, sent.2.length)) =
        some [(0, 19)] := by
    decide +kernel
  rcases Option.map_eq_some_iff.mp observed with ⟨⟨events, final⟩, ran, same⟩
  have sent : (0, 19) ∈ events.filterMap fun event =>
      event.connectBody.map fun sent => (sent.1, sent.2.length) :=
    same ▸ List.mem_singleton_self _
  rcases List.mem_filterMap.mp sent with ⟨event, here, shown⟩
  rcases Option.map_eq_some_iff.mp shown with ⟨⟨m, body⟩, isSent, parts⟩
  simp only [Prod.mk.injEq] at parts
  rcases parts with ⟨rfl, length⟩
  have carries := connectSent_carriesOptions (by decide +kernel) ran
  exact ⟨events, final, body, ran, Event.connectBody_eq_some.mp isSent ▸ here, length, carries⟩

/-- A keep alive interval of 60 seconds is not sent; and behind a call with a user name a
call without one comes upon the freed string. -/
theorem not_carriesOptions :
    (∃ events final, machine.run [.create ⟨[], by decide⟩,
        connectNow { keepAliveInterval := 60 }] (.receiving []) = some (events, final) ∧
      ¬Machine.Always (CarriesOptions fun m => (final.library.client m).clientID) events) ∧
    ∃ events final, machine.run [.create ⟨[], by decide⟩, .connect 0 namedOptions
        ⟨false, false, .failed (-1) (by decide) none⟩] (.receiving []) = some (events, final) ∧
      0 ∈ final.library.handles.values ∧ step (connectNow {}) final = none := by
  constructor
  · have observed : (machine.run [.create ⟨[], by decide⟩,
        connectNow { keepAliveInterval := 60 }] (.receiving [])).map (fun reached =>
          (reached.1[2]?.bind Event.connectBody).any fun sent => decide (sent.1 = 0 ∧
            ∀ options ∈ lastOptions 0 (reached.1.take 2), ∀ fields ∈ connectFields.toEnd sent.2,
              (fields.keepAlive : Int) ≠ options.keepAliveInterval)) = some true := by
      decide +kernel
    rcases Option.map_eq_some_iff.mp observed with ⟨⟨events, final⟩, ran, same⟩
    refine ⟨events, final, ran, fun carries => ?_⟩
    rcases (Option.any_eq_true _ _).mp same with ⟨⟨m, body⟩, third, own⟩
    rcases of_decide_eq_true own with ⟨rfl, different⟩
    rcases Option.bind_eq_some_iff.mp third with ⟨event, here, sent⟩
    rcases List.getElem?_eq_some_iff.mp here with ⟨long, rfl⟩
    have split : events = events.take 2 ++ events[2] :: events.drop 3 := by
      rw [← List.drop_eq_getElem_cons long, List.take_append_drop]
    rcases carries _ _ _ split 0 body (Event.connectBody_eq_some.mp sent) with
      ⟨latest, called, _, fields, decoded, _, asked⟩
    exact different latest called fields decoded asked.keepAlive
  · have observed : (machine.run [.create ⟨[], by decide⟩, .connect 0 namedOptions
        ⟨false, false, .failed (-1) (by decide) none⟩] (.receiving [])).map (fun reached =>
          decide (0 ∈ reached.2.library.handles.values ∧
            (step (connectNow {}) reached.2).isNone)) = some true := by
      decide +kernel
    rcases Option.map_eq_some_iff.mp observed with ⟨⟨events, final⟩, ran, same⟩
    rcases of_decide_eq_true same with ⟨member, stuck⟩
    exact ⟨events, final, ran, member, Option.isNone_iff_eq_none.mp stuck⟩

end MqttClient.MQTTClient
