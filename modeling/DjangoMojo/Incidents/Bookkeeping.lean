import DjangoMojo.Incidents.TriggerLaw

/-! # The books of an incident

An incident counts its events, and knows the group they have in common, or that they have
none. Publications keep these books when the metadata of a first event does not write in them.
A merge moves events and their count, and leaves the group of the target alone.
-/

namespace DjangoMojo.Incidents

open Foundation

namespace Database

variable (db : Database)

/-- `event.publish()`, with no other one under way. -/
def publish (settings : Settings) (options : PublishOptions) (id : Nat) (event : Event)
    (fresh : Nat) (now : Time) : Option Database :=
  match settings.route options event with
  | .bundle ruleSet =>
    (db.attach settings options ruleSet id event (db.findBundle ruleSet event now) fresh now).map
      Prod.fst
  | _ => some db

/-! ### Merges -/

def others (target : Nat) (value : List Nat) : List Nat :=
  db.incidents.keys.filter fun id => id ∈ value && id ≠ target

/-- The events of one incident move to the target, and the incident goes. -/
def mergeOne (target other : Nat) : Database where
  incidents := db.incidents.delete other
  events := db.events.mapRows fun event =>
    if event.incident = some other then { event with incident := some target } else event
  links := db.links.map fun id => if id = other then target else id

/-- The incidents in turn, and the number of events that moved. -/
def mergeAll (target : Nat) : Database → List Nat → Database × Nat
  | db, [] => (db, 0)
  | db, other :: rest =>
    let moved := (db.linked other).length
    let (merged, total) := mergeAll target (db.mergeOne target other) rest
    (merged, moved + total)

/-- `on_action_merge`; there is no result where it raises, and nothing is written then. -/
def merge (settings : Settings) (target : Nat) (value : List Nat) : Option Database :=
  (db.incidents.get target).bind fun _ =>
    let others := db.others target value
    if value = [] then none
    else if 1 < (db.links.filter fun id => id = target || id ∈ others).length then none
    else
      let (merged, total) := db.mergeAll target others
      if total = 0 then some merged
      else
        (merged.incidents.get target).bind fun row =>
          (settings.eventCount row.metadata).map fun count =>
            let counted := { row with
              metadata := row.metadata.set "event_count" (.int (count + total)) }
            { merged with incidents := merged.incidents.put target counted }

end Database

/-! ### The books -/

namespace Database

variable (db : Database)

def HasGroup (id group : Nat) : Prop :=
  ∃ key event, db.events.get key = some event ∧ event.incident = some id ∧ event.group = some group

def Mixed (id : Nat) : Prop := ∃ first second, db.HasGroup id first ∧ db.HasGroup id second ∧
  first ≠ second

structure Books (id : Nat) (incident : Incident) : Prop where
  counted : incident.metadata.field "event_count" = some (.int (db.linked id).length)
  ungrouped : (∀ group, ¬ db.HasGroup id group) → incident.group = none
  agreed : ∀ group, db.HasGroup id group → (∀ other, db.HasGroup id other → other = group) →
    incident.group = some group
  mixed : db.Mixed id → incident.group = none ∧
    incident.metadata.field "group_mismatch" = some (.bool true)

def Balanced : Prop := ∀ id incident, db.incidents.get id = some incident → db.Books id incident

def Flagged (id : Nat) (incident : Incident) : Prop :=
  incident.group = none → incident.metadata.isSet "group_mismatch" → db.Mixed id

/-- The groups of the events that a merge takes in are the group of the target, unless its
own events differ already. -/
def Mergeable (target : Nat) (value : List Nat) : Prop :=
  ∀ incident, db.incidents.get target = some incident → ∀ other ∈ db.others target value,
    ∀ group, db.HasGroup other group → db.Mixed target ∨ incident.group = some group

end Database

/-! ### A publication -/

namespace Incident

structure SameBooks (incident other : Incident) : Prop where
  count : other.metadata.field "event_count" = incident.metadata.field "event_count"
  mismatch : other.metadata.field "group_mismatch" = incident.metadata.field "group_mismatch"
  group : other.group = incident.group

theorem sameBooks_escalate (incident : Incident) (level : Int) :
    SameBooks incident (incident.escalate level) := by
  obtain ⟨priority, heq⟩ := incident.escalate_cases level
  rw [heq]
  exact ⟨rfl, rfl, rfl⟩

theorem sameBooks_hold (incident : Incident) (trigger : Option ℕ+) (count : Nat) :
    SameBooks incident (incident.hold trigger count) := by
  obtain ⟨status, heq⟩ := incident.hold_cases trigger count
  rw [heq]
  exact ⟨rfl, rfl, rfl⟩

theorem sameBooks_trigger (incident : Incident) (ruleSet : RuleSet) (created : Bool)
    (previous : Status) (count total : Nat) :
    SameBooks incident (incident.trigger ruleSet created previous count total).1 := by
  rcases incident.trigger_cases ruleSet created previous count total with heq | heq
  · rw [heq]
    exact ⟨rfl, rfl, rfl⟩
  · rw [heq]
    exact ⟨JsonFields.field_set_ne (by decide), JsonFields.field_set_ne (by decide), rfl⟩

end Incident

theorem Settings.eventCount_of_field {settings : Settings} {metadata : JsonFields} {count : Nat}
    (hfield : metadata.field "event_count" = some (.int count)) :
    settings.eventCount metadata = some (count : Int) := by
  unfold Settings.eventCount
  rw [hfield]
  dsimp only
  split
  · exact settings.readInt_int count
  next hzero =>
    have hcount : (count : Int) = 0 := by simpa [Json.truthy] using hzero
    rw [hcount]

namespace Database

variable {db next : Database} {id : Nat} {incident other : Incident}

theorem Books.congr (hbooks : db.Books id incident) (hsame : incident.SameBooks other) :
    db.Books id other where
  counted := hsame.count.trans hbooks.counted
  ungrouped hnone := hsame.group.trans (hbooks.ungrouped hnone)
  agreed group hgroup honly := hsame.group.trans (hbooks.agreed group hgroup honly)
  mixed hmixed := ⟨hsame.group.trans (hbooks.mixed hmixed).1,
    hsame.mismatch.trans (hbooks.mixed hmixed).2⟩

theorem Flagged.congr (hflagged : db.Flagged id incident) (hsame : incident.SameBooks other) :
    db.Flagged id other := by
  intro hgroup hset
  rw [JsonFields.isSet, hsame.mismatch] at hset
  exact hflagged (hsame.group.symm.trans hgroup) hset

theorem groups_cases (db : Database) (id : Nat) : (∀ group, ¬ db.HasGroup id group) ∨
    (∃ group, db.HasGroup id group ∧ ∀ other, db.HasGroup id other → other = group) ∨
    db.Mixed id := by
  by_cases hnone : ∀ group, ¬ db.HasGroup id group
  · exact .inl hnone
  push Not at hnone
  obtain ⟨group, hgroup⟩ := hnone
  by_cases honly : ∀ other, db.HasGroup id other → other = group
  · exact .inr (.inl ⟨group, hgroup, honly⟩)
  push Not at honly
  obtain ⟨other, hother, hne⟩ := honly
  exact .inr (.inr ⟨other, group, hother, hgroup, hne⟩)

/-- The database has the groups of one more event of the incident. -/
def Gains (db next : Database) (id : Nat) (group : Option Nat) : Prop :=
  ∀ other known, next.HasGroup other known ↔
    db.HasGroup other known ∨ (other = id ∧ group = some known)

theorem Mixed.gains {group : Option Nat} {other : Nat} (hgains : db.Gains next id group)
    (hmixed : db.Mixed other) : next.Mixed other := by
  obtain ⟨first, second, hfirst, hsecond, hne⟩ := hmixed
  exact ⟨first, second, (hgains other first).mpr (.inl hfirst),
    (hgains other second).mpr (.inl hsecond), hne⟩

theorem Books.link {group : Option Nat} (settings : Settings) (hbooks : db.Books id incident)
    (hflagged : group ≠ none → db.Flagged id incident) (hgains : db.Gains next id group)
    (hcount : (next.linked id).length = (db.linked id).length + 1) :
    next.Books id (incident.link settings group) := by
  have hkept : ∀ value : Json, JsonFields.field (incident.metadata.set "event_count" value)
      "group_mismatch" = incident.metadata.field "group_mismatch" :=
    fun _ => JsonFields.field_set_ne (by decide)
  have hcounted : ∀ fields : JsonFields, fields = incident.metadata.set "event_count"
      (.int ((db.linked id).length + 1 : Int)) →
      fields.field "event_count" = some (.int (next.linked id).length) := by
    intro fields hfields
    rw [hfields, JsonFields.field_set_self, hcount]
    rfl
  unfold Incident.link
  rw [Settings.eventCount_of_field hbooks.counted]
  dsimp only
  cases group with
  | none =>
    have hgroups : ∀ known, next.HasGroup id known ↔ db.HasGroup id known := by
      intro known
      rw [hgains]
      simp
    refine ⟨hcounted _ rfl, fun hnone => ?_, fun known hknown honly => ?_, fun hmixed => ?_⟩
    · exact hbooks.ungrouped fun known hknown => hnone known ((hgroups known).mpr hknown)
    · exact hbooks.agreed known ((hgroups known).mp hknown)
        fun other hother => honly other ((hgroups other).mpr hother)
    · obtain ⟨first, second, hfirst, hsecond, hne⟩ := hmixed
      obtain ⟨hgroup, hflag⟩ := hbooks.mixed ⟨first, second, (hgroups first).mp hfirst,
        (hgroups second).mp hsecond, hne⟩
      exact ⟨hgroup, (hkept _).trans hflag⟩
  | some group =>
    have hnew : next.HasGroup id group := (hgains id group).mpr (.inr ⟨rfl, rfl⟩)
    cases hknown : incident.group with
    | none =>
      dsimp only
      by_cases hset : incident.metadata.isSet "group_mismatch"
      · rw [if_pos hset]
        have hmixed := hflagged (Option.some_ne_none group) hknown hset
        have hmixed' := hmixed.gains hgains
        refine ⟨hcounted _ rfl, fun hnone => absurd hnew (hnone group),
          fun known _ honly => ?_, fun _ => ?_⟩
        · obtain ⟨first, second, hfirst, hsecond, hne⟩ := hmixed'
          exact absurd ((honly first hfirst).trans (honly second hsecond).symm) hne
        · exact ⟨rfl, (hkept _).trans (hbooks.mixed hmixed).2⟩
      · rw [if_neg hset]
        have hnone : ∀ known, ¬ db.HasGroup id known := by
          rcases db.groups_cases id with hnone | ⟨known, hgroup, honly⟩ | hmixed
          · exact hnone
          · cases hknown.symm.trans (hbooks.agreed known hgroup honly)
          · rw [JsonFields.isSet, (hbooks.mixed hmixed).2] at hset
            exact absurd rfl hset
        have honly : ∀ known, next.HasGroup id known → known = group := by
          intro known hhas
          rcases (hgains id known).mp hhas with hold | ⟨_, heq⟩
          · exact absurd hold (hnone known)
          · exact (Option.some.inj heq).symm
        refine ⟨hcounted _ rfl, fun hnone => absurd hnew (hnone group),
          fun known hhas _ => by rw [honly known hhas], fun hmixed => ?_⟩
        obtain ⟨first, second, hfirst, hsecond, hne⟩ := hmixed
        exact absurd ((honly first hfirst).trans (honly second hsecond).symm) hne
    | some known =>
      dsimp only
      obtain ⟨hhas, honly⟩ : db.HasGroup id known ∧ ∀ other, db.HasGroup id other → other = known := by
        rcases db.groups_cases id with hnone | ⟨agreed, hgroup, honly⟩ | hmixed
        · cases hknown.symm.trans (hbooks.ungrouped hnone)
        · cases hknown.symm.trans (hbooks.agreed agreed hgroup honly)
          exact ⟨hgroup, honly⟩
        · cases hknown.symm.trans (hbooks.mixed hmixed).1
      by_cases hne : group ≠ known
      · rw [if_pos hne]
        have hmixed : next.Mixed id := ⟨group, known, hnew, (hgains id known).mpr (.inl hhas), hne⟩
        refine ⟨?_, fun hnone => absurd hnew (hnone group), fun agreed _ hagreed => ?_,
          fun _ => ⟨rfl, JsonFields.field_set_self⟩⟩
        · rw [JsonFields.field_set_ne (by decide)]
          exact hcounted _ rfl
        · obtain ⟨first, second, hfirst, hsecond, hdiffer⟩ := hmixed
          exact absurd ((hagreed first hfirst).trans (hagreed second hsecond).symm) hdiffer
      · rw [if_neg hne]
        have hsame : group = known := by
          by_contra hdiffer
          exact hne hdiffer
        subst hsame
        have honly' : ∀ other, next.HasGroup id other → other = group := by
          intro other hother
          rcases (hgains id other).mp hother with hold | ⟨_, heq⟩
          · exact honly other hold
          · exact (Option.some.inj heq).symm
        refine ⟨hcounted _ rfl, fun hnone => absurd hnew (hnone group),
          fun agreed hagreed _ => by rw [honly' agreed hagreed], fun hmixed => ?_⟩
        obtain ⟨first, second, hfirst, hsecond, hdiffer⟩ := hmixed
        exact absurd ((honly' first hfirst).trans (honly' second hsecond).symm) hdiffer

theorem Books.first {group : Option Nat} {settings : Settings}
    (hcount : settings.eventCount incident.metadata = some 0) (hgroup : incident.group = group)
    (hnone : ∀ known, ¬ db.HasGroup id known) (hgains : db.Gains next id group)
    (hlinked : (next.linked id).length = 1) :
    next.Books id (incident.link settings group) := by
  have honly : ∀ known, next.HasGroup id known ↔ group = some known := by
    intro known
    rw [hgains]
    simp [hnone known]
  have hunmixed : ¬ next.Mixed id := by
    rintro ⟨first, second, hfirst, hsecond, hne⟩
    rw [honly] at hfirst hsecond
    exact hne (Option.some.inj (hfirst.symm.trans hsecond))
  have hone : JsonFields.field (incident.metadata.set "event_count" (.int (0 + 1))) "event_count" =
      some (.int (next.linked id).length) := by
    rw [JsonFields.field_set_self, hlinked]
    rfl
  have hlink : incident.link settings group =
      { incident with metadata := incident.metadata.set "event_count" (.int (0 + 1)) } := by
    unfold Incident.link
    rw [hcount, hgroup]
    dsimp only
    cases group with
    | none => rfl
    | some group =>
      dsimp only
      rw [if_neg fun hne => hne rfl]
  rw [hlink]
  refine ⟨hone, fun hempty => ?_, fun known hknown _ => ?_, fun hmixed => absurd hmixed hunmixed⟩
  · change incident.group = none
    rw [hgroup]
    cases group with
    | none => rfl
    | some known => exact absurd ((honly known).mpr rfl) (hempty known)
  · exact hgroup.trans ((honly known).mp hknown)

/-! ### What is linked -/

theorem length_filter_rows (table : Table Nat Event) (holds : Event → Bool) :
    (table.rows.filter fun entry => holds entry.2).length =
      table.total fun event => if holds event then 1 else 0 := by
  rw [Table.rows, Table.total]
  induction table.keys with
  | nil => rfl
  | cons key rest ih =>
    rw [List.filterMap_cons, List.map_cons, List.sum_cons, ← ih]
    cases table.get key with
    | none => simp [Table.measured]
    | some event =>
      by_cases hholds : holds event
      · simp [Table.measured, hholds, Nat.add_comm]
      · simp [Table.measured, hholds]

theorem linked_put {key : Nat} {event : Event} (hevents : next.events =
      db.events.put key { event with incident := some id })
    (hunlinked : ∀ old, db.events.get key = some old → old.incident = none) (other : Nat) :
    (next.linked other).length = (db.linked other).length + if other = id then 1 else 0 := by
  have htotal := db.events.total_put (fun event => if event.incident = some other then 1 else 0) key
    { event with incident := some id }
  have hnone : Table.measured (fun event : Event => if event.incident = some other then 1 else 0)
      (db.events.get key) = 0 := by
    cases hold : db.events.get key with
    | none => rfl
    | some old => simp [Table.measured, hunlinked old hold]
  have hlength := fun table => length_filter_rows table fun event => event.incident = some other
  simp only [decide_eq_true_eq] at hlength
  rw [linked, linked, hevents, hlength, hlength]
  rw [hnone] at htotal
  simpa [eq_comm] using htotal

theorem gains_put {key : Nat} {event : Event} (hevents : next.events =
      db.events.put key { event with incident := some id })
    (hunlinked : ∀ old, db.events.get key = some old → old.incident = none) :
    db.Gains next id event.group := by
  intro other known
  constructor
  · rintro ⟨found, row, hrow, hincident, hgroup⟩
    rw [hevents, Table.get_put] at hrow
    split at hrow
    · cases hrow
      exact .inr ⟨(Option.some.inj hincident).symm, hgroup⟩
    · exact .inl ⟨found, row, hrow, hincident, hgroup⟩
  · rintro (⟨found, row, hrow, hincident, hgroup⟩ | ⟨rfl, hgroup⟩)
    · refine ⟨found, row, ?_, hincident, hgroup⟩
      rw [hevents, Table.get_put, if_neg]
      · exact hrow
      · intro heq
        rw [heq] at hrow
        cases (hunlinked row hrow).symm.trans hincident
    · refine ⟨key, { event with incident := some other }, ?_, rfl, hgroup⟩
      rw [hevents, Table.get_put, if_pos rfl]

theorem Books.untouched {known : Nat} {group : Option Nat} (hbooks : db.Books known incident)
    (hgains : db.Gains next id group) (hother : known ≠ id)
    (hlinked : (next.linked known).length = (db.linked known).length) : next.Books known incident := by
  have hgroups : ∀ group, next.HasGroup known group ↔ db.HasGroup known group := by
    intro group
    rw [hgains]
    simp [hother]
  refine ⟨by rw [hlinked]; exact hbooks.counted, ?_, ?_, ?_⟩
  · intro hnone
    exact hbooks.ungrouped fun group hgroup => hnone group ((hgroups group).mpr hgroup)
  · intro group hgroup honly
    exact hbooks.agreed group ((hgroups group).mp hgroup)
      fun other hother => honly other ((hgroups other).mpr hother)
  · rintro ⟨first, second, hfirst, hsecond, hne⟩
    exact hbooks.mixed ⟨first, second, (hgroups first).mp hfirst, (hgroups second).mp hsecond, hne⟩

/-- The books balance, and no event is linked to an incident that is not there. -/
structure Sound (db : Database) : Prop where
  balanced : db.Balanced
  linked : ∀ key event id, db.events.get key = some event → event.incident = some id →
    (db.incidents.get id).isSome

theorem Sound.attached {key : Nat} {event : Event} {final : Incident} (hsound : db.Sound)
    (hevents : next.events = db.events.put key { event with incident := some id })
    (hincidents : next.incidents = db.incidents.put id final)
    (hunlinked : ∀ old, db.events.get key = some old → old.incident = none)
    (hbooks : next.Books id final) : next.Sound := by
  have hgains := gains_put hevents hunlinked
  refine ⟨fun other row hrow => ?_, fun found linked other hlinked hother => ?_⟩
  · rw [hincidents, Table.get_put] at hrow
    split at hrow
    next heq =>
      cases hrow
      rw [heq]
      exact hbooks
    next hne =>
      have hlinked := linked_put hevents hunlinked other
      rw [if_neg hne, Nat.add_zero] at hlinked
      exact (hsound.balanced other row hrow).untouched hgains hne hlinked
  · rw [hincidents, Table.get_put]
    split
    · rfl
    next hne =>
      rw [hevents, Table.get_put] at hlinked
      split at hlinked
      · cases hlinked
        exact absurd (Option.some.inj hother).symm hne
      · exact hsound.linked found linked other hlinked hother

theorem handle_cases (db : Database) (settings : Settings) (options : PublishOptions)
    (ruleSet : Option RuleSet) (key : Nat) (event : Event) (id : Nat) (incident : Incident)
    (created : Bool) (now : Time) :
    ∃ held final, incident.SameBooks held ∧ (held.link settings event.group).SameBooks final ∧
      (db.handle settings options ruleSet key event id incident created now).1 =
        { db with
          incidents := db.incidents.put id final
          events := db.events.put key { event with incident := some id } } := by
  cases ruleSet with
  | none => exact ⟨incident, _, ⟨rfl, rfl, rfl⟩, ⟨rfl, rfl, rfl⟩, rfl⟩
  | some ruleSet =>
    exact ⟨_, _, incident.sameBooks_hold _ _, Incident.sameBooks_trigger _ _ _ _ _ _, rfl⟩

theorem get_of_findBundle {ruleSet : Option RuleSet} {event : Event} {now : Time}
    (hfound : db.findBundle ruleSet event now = some (id, incident)) :
    db.incidents.get id = some incident := by
  unfold findBundle at hfound
  split at hfound
  next ruleSet =>
    split at hfound
    · cases hfound
    · have hmem := List.argmin_mem hfound
      exact Table.mem_rows.mp (List.mem_filter.mp hmem).1
  · cases hfound

theorem Sound.not_hasGroup (hsound : db.Sound) (habsent : db.incidents.get id = none)
    (group : Nat) : ¬ db.HasGroup id group := by
  rintro ⟨key, event, hevent, hincident, _⟩
  have hsome := hsound.linked key event id hevent hincident
  rw [habsent] at hsome
  cases hsome

theorem Sound.length_linked (hsound : db.Sound) (habsent : db.incidents.get id = none) :
    (db.linked id).length = 0 := by
  rw [List.length_eq_zero_iff, Database.linked, List.filter_eq_nil_iff]
  rintro ⟨key, event⟩ hmem hincident
  have hsome := hsound.linked key event id (Table.mem_rows.mp hmem) (by simpa using hincident)
  rw [habsent] at hsome
  cases hsome

theorem Sound.handle {settings : Settings} {options : PublishOptions} {ruleSet : Option RuleSet}
    {key : Nat} {event : Event} {created : Bool} {now : Time} (hsound : db.Sound)
    (hunlinked : ∀ old, db.events.get key = some old → old.incident = none)
    (hlink : ∀ {next held}, db.Gains next id event.group →
      (next.linked id).length = (db.linked id).length + 1 → incident.SameBooks held →
      next.Books id (held.link settings event.group)) :
    (db.handle settings options ruleSet key event id incident created now).1.Sound := by
  obtain ⟨held, final, hheld, hfinal, heq⟩ :=
    db.handle_cases settings options ruleSet key event id incident created now
  rw [heq]
  have hevents : (Database.mk (db.incidents.put id final)
      (db.events.put key { event with incident := some id }) db.links).events =
      db.events.put key { event with incident := some id } := rfl
  have hcount := linked_put hevents hunlinked id
  rw [if_pos rfl] at hcount
  have hbooks := hlink (gains_put hevents hunlinked) hcount hheld
  exact hsound.attached hevents rfl hunlinked (hbooks.congr hfinal)

/-- What a publication needs: the event is new, and neither a count nor a mismatch comes from
the metadata of a first event. -/
def Publishes (db : Database) (settings : Settings) (options : PublishOptions) (key : Nat)
    (event : Event) (now : Time) : Prop :=
  ∀ ruleSet, settings.route options event = .bundle ruleSet →
    (∀ old, db.events.get key = some old → old.incident = none) ∧
      match db.findBundle ruleSet event now with
      | some (id, incident) => event.group ≠ none → db.Flagged id incident
      | none => settings.eventCount (newIncident ruleSet event.syncMetadata now).metadata = some 0

theorem Sound.publish {settings : Settings} {options : PublishOptions} {key fresh : Nat}
    {event : Event} {now : Time} (hsound : db.Sound)
    (hpublishes : db.Publishes settings options key event now)
    (hnext : db.publish settings options key event fresh now = some next) : next.Sound := by
  unfold Database.publish at hnext
  split at hnext
  next ruleSet hroute =>
    obtain ⟨hunlinked, hfirst⟩ := hpublishes ruleSet hroute
    obtain ⟨⟨final, dispatched⟩, hattach, heq⟩ := Option.map_eq_some_iff.mp hnext
    cases heq
    unfold attach at hattach
    split at hattach
    next id incident hfound =>
      rw [hfound] at hfirst
      have hincident := get_of_findBundle hfound
      have hescalated := incident.sameBooks_escalate event.level
      have hwritten : (db.handle settings options ruleSet key event id
          (incident.escalate event.level) false now).1.Sound := by
        refine hsound.handle hunlinked fun hgains hcount hheld => ?_
        have hbooks := ((hsound.balanced id incident hincident).congr hescalated).congr hheld
        exact hbooks.link settings
          (fun hgroup => ((hfirst hgroup).congr hescalated).congr hheld) hgains hcount
      rw [Option.some.inj hattach] at hwritten
      exact hwritten
    next hnone =>
      rw [hnone] at hfirst
      split at hattach
      · cases hattach
      next habsent =>
        have habsent : db.incidents.get fresh = none := by simpa using habsent
        have hwritten : (db.handle settings options ruleSet key event.syncMetadata fresh
            (newIncident ruleSet event.syncMetadata now) true now).1.Sound := by
          refine hsound.handle hunlinked fun hgains hcount hheld => ?_
          rw [hsound.length_linked habsent, Nat.zero_add] at hcount
          refine Books.first ?_ (hheld.group.trans rfl) (hsound.not_hasGroup habsent) hgains hcount
          rw [Settings.eventCount, hheld.count]
          exact hfirst
        rw [Option.some.inj hattach] at hwritten
        exact hwritten
  next => cases hnext; exact hsound

/-! ### A merge -/

theorem hasGroup_mergeOne {target other known group : Nat} :
    (db.mergeOne target other).HasGroup known group ↔
      (known = target ∧ db.HasGroup other group) ∨ (known ≠ other ∧ db.HasGroup known group) := by
  constructor
  · rintro ⟨key, row, hrow, hincident, hgroup⟩
    obtain ⟨event, hevent, heq⟩ := Option.map_eq_some_iff.mp hrow
    subst heq
    split at hincident
    next hother =>
      rw [if_pos hother] at hgroup
      exact .inl ⟨(Option.some.inj hincident).symm, key, event, hevent, hother, hgroup⟩
    next hother =>
      rw [if_neg hother] at hgroup
      refine .inr ⟨fun heq => ?_, key, event, hevent, hincident, hgroup⟩
      rw [heq] at hincident
      exact hother hincident
  · rintro (⟨rfl, key, event, hevent, hincident, hgroup⟩ |
      ⟨hne, key, event, hevent, hincident, hgroup⟩)
    · refine ⟨key, { event with incident := some known }, ?_, rfl, hgroup⟩
      change (db.events.get key).map _ = _
      rw [hevent, Option.map_some, if_pos hincident]
    · refine ⟨key, event, ?_, hincident, hgroup⟩
      change (db.events.get key).map _ = _
      rw [hevent, Option.map_some, if_neg]
      rw [hincident]
      exact fun heq => hne (Option.some.inj heq)

theorem length_linked_mergeOne {target other : Nat} (hne : other ≠ target) (known : Nat)
    (hknown : known ≠ other) :
    ((db.mergeOne target other).linked known).length =
      (db.linked known).length + if known = target then (db.linked other).length else 0 := by
  have hrows : (db.mergeOne target other).events.rows = db.events.rows.map fun entry =>
      (entry.1, if entry.2.incident = some other then { entry.2 with incident := some target }
        else entry.2) := Table.rows_mapRows _ _
  rw [linked, linked, linked, hrows]
  induction db.events.rows with
  | nil => simp
  | cons entry rest ih =>
    rw [List.map_cons]
    by_cases hother : entry.2.incident = some other
    · have hold : ¬ entry.2.incident = some known := by
        rw [hother]
        exact fun heq => hknown (Option.some.inj heq).symm
      by_cases htarget : known = target
      · subst htarget
        simp only [hother, if_true, decide_true, List.filter_cons_of_pos, List.length_cons, ih]
        rw [List.filter_cons_of_neg (by simpa using hold)]
        omega
      · have hnew : ¬ some target = some known := fun heq => htarget (Option.some.inj heq).symm
        simp [hother, hnew, htarget, ih, Ne.symm hknown]
    · simp only [hother, if_false]
      by_cases hincident : entry.2.incident = some known
      · simp [hincident, ih, Nat.add_right_comm, hknown]
      · simp [hincident, ih, hother]

/-- A merge under way: the books of the target lack the events that moved. -/
structure Merging (db : Database) (target : Nat) (incident : Incident) (pending : Nat)
    (others : List Nat) : Prop where
  row : db.incidents.get target = some incident
  counted : ∃ count : Nat, incident.metadata.field "event_count" = some (.int count) ∧
    (db.linked target).length = count + pending
  ungrouped : (∀ group, ¬ db.HasGroup target group) → incident.group = none
  agreed : ∀ group, db.HasGroup target group →
    (∀ other, db.HasGroup target other → other = group) → incident.group = some group
  mixed : db.Mixed target → incident.group = none ∧
    incident.metadata.field "group_mismatch" = some (.bool true)
  apart : ∀ other row, other ≠ target → db.incidents.get other = some row → db.Books other row
  linked : ∀ key event id, db.events.get key = some event → event.incident = some id →
    (db.incidents.get id).isSome
  mergeable : ∀ other ∈ others, ∀ group, db.HasGroup other group →
    db.Mixed target ∨ incident.group = some group

theorem Merging.mergeOne {target pending : Nat} {others : List Nat} {first : Nat}
    (hmerging : db.Merging target incident pending (first :: others)) (hne : first ≠ target)
    (hfirst : first ∉ others) :
    (db.mergeOne target first).Merging target incident (pending + (db.linked first).length)
      others := by
  have htarget : ∀ group, (db.mergeOne target first).HasGroup target group ↔
      db.HasGroup first group ∨ db.HasGroup target group := by
    intro group
    rw [hasGroup_mergeOne]
    simp [hne.symm]
  have hothers : ∀ other group, other ≠ target → other ≠ first →
      ((db.mergeOne target first).HasGroup other group ↔ db.HasGroup other group) := by
    intro other group hother hnot
    rw [hasGroup_mergeOne]
    simp [hother, hnot]
  have hmono : db.Mixed target → (db.mergeOne target first).Mixed target := by
    rintro ⟨left, right, hleft, hright, hdiffer⟩
    exact ⟨left, right, (htarget left).mpr (.inr hleft), (htarget right).mpr (.inr hright), hdiffer⟩
  -- Where the target is not mixed, the events that move have its group.
  have hmoved : ∀ group, db.HasGroup first group → ¬ db.Mixed target →
      incident.group = some group := fun group hgroup hnot =>
    (hmerging.mergeable first List.mem_cons_self group hgroup).resolve_left hnot
  have hback : (db.mergeOne target first).Mixed target → db.Mixed target := by
    rintro ⟨left, right, hleft, hright, hdiffer⟩
    by_contra hnot
    have hknown : ∀ group, (db.mergeOne target first).HasGroup target group →
        incident.group = some group := by
      intro group hgroup
      rcases (htarget group).mp hgroup with hgroup | hgroup
      · exact hmoved group hgroup hnot
      · refine hmerging.agreed group hgroup fun other hother => ?_
        by_contra hother'
        exact hnot ⟨other, group, hother, hgroup, hother'⟩
    exact hdiffer (Option.some.inj ((hknown left hleft).symm.trans (hknown right hright)))
  refine ⟨?_, ?_, ?_, ?_, ?_, ?_, ?_, ?_⟩
  · change (db.incidents.delete first).get target = _
    rw [Table.get_delete, if_neg hne.symm]
    exact hmerging.row
  · obtain ⟨count, hcount, hlength⟩ := hmerging.counted
    refine ⟨count, hcount, ?_⟩
    rw [length_linked_mergeOne hne target hne.symm, if_pos rfl, hlength, Nat.add_assoc]
  · intro hnone
    exact hmerging.ungrouped fun group hgroup => hnone group ((htarget group).mpr (.inr hgroup))
  · intro group hgroup honly
    have hnot : ¬ db.Mixed target := by
      rintro ⟨left, right, hleft, hright, hdiffer⟩
      exact hdiffer ((honly left ((htarget left).mpr (.inr hleft))).trans
        (honly right ((htarget right).mpr (.inr hright))).symm)
    rcases (htarget group).mp hgroup with hgroup | hgroup
    · exact hmoved group hgroup hnot
    · exact hmerging.agreed group hgroup
        fun other hother => honly other ((htarget other).mpr (.inr hother))
  · exact fun hmixed => hmerging.mixed (hback hmixed)
  · intro other row hother hrow
    change (db.incidents.delete first).get other = _ at hrow
    rw [Table.get_delete] at hrow
    split at hrow
    · cases hrow
    next hnot =>
      have hbooks := hmerging.apart other row hother hrow
      have hgroups := fun group => hothers other group hother hnot
      have hmixed : (db.mergeOne target first).Mixed other ↔ db.Mixed other := by
        simp only [Mixed, hgroups]
      refine ⟨?_, ?_, ?_, ?_⟩
      · rw [length_linked_mergeOne hne other hnot, if_neg hother]
        exact hbooks.counted
      · simpa only [hgroups] using hbooks.ungrouped
      · simpa only [hgroups] using hbooks.agreed
      · simpa only [hmixed] using hbooks.mixed
  · intro key event id hevent hincident
    change (db.events.get key).map _ = _ at hevent
    change ((db.incidents.delete first).get id).isSome
    obtain ⟨old, hold, heq⟩ := Option.map_eq_some_iff.mp hevent
    subst heq
    rw [Table.get_delete]
    split at hincident
    next =>
      rw [← Option.some.inj hincident, if_neg hne.symm, hmerging.row]
      rfl
    next hother =>
      have hnot : id ≠ first := by
        rintro rfl
        exact hother hincident
      rw [if_neg hnot]
      exact hmerging.linked key old id hold hincident
  · intro other hother group hgroup
    have hnot : other ≠ first := fun heq => hfirst (heq ▸ hother)
    rcases hasGroup_mergeOne.mp hgroup with ⟨_, hmoves⟩ | ⟨_, hstays⟩
    · exact (hmerging.mergeable first List.mem_cons_self group hmoves).imp hmono id
    · exact (hmerging.mergeable other (List.mem_cons_of_mem _ hother) group hstays).imp hmono id

theorem Merging.mergeAll {target pending : Nat} {others : List Nat}
    (hmerging : db.Merging target incident pending others) (hothers : ∀ other ∈ others, other ≠ target)
    (hnodup : others.Nodup) :
    (db.mergeAll target others).1.Merging target incident
      (pending + (db.mergeAll target others).2) [] := by
  induction others generalizing db pending with
  | nil => exact hmerging
  | cons first rest ih =>
    obtain ⟨hfirst, hrest⟩ := List.nodup_cons.mp hnodup
    have hone := hmerging.mergeOne (hothers first List.mem_cons_self) hfirst
    have hall := ih hone (fun other hother => hothers other (List.mem_cons_of_mem _ hother)) hrest
    rw [Nat.add_assoc] at hall
    exact hall

theorem Merging.sound {target pending : Nat} {final : Incident}
    (hmerging : db.Merging target incident pending [])
    (hcounted : final.metadata.field "event_count" = some (.int (db.linked target).length))
    (hgroup : final.group = incident.group)
    (hmismatch : final.metadata.field "group_mismatch" = incident.metadata.field "group_mismatch") :
    ({ db with incidents := db.incidents.put target final } : Database).Sound := by
  have hrow := fun other => Table.get_put db.incidents target final other
  refine ⟨fun other row hother => ?_, fun key event id hevent hincident => ?_⟩
  · rw [hrow] at hother
    split at hother
    next heq =>
      cases hother
      rw [heq]
      refine ⟨hcounted, fun hnone => ?_, fun group hhas honly => ?_, fun hmixed => ?_⟩
      · exact hgroup.trans (hmerging.ungrouped hnone)
      · exact hgroup.trans (hmerging.agreed group hhas honly)
      · exact ⟨hgroup.trans (hmerging.mixed hmixed).1, hmismatch.trans (hmerging.mixed hmixed).2⟩
    next hne =>
      have hbooks := hmerging.apart other row hne hother
      exact ⟨hbooks.counted, hbooks.ungrouped, hbooks.agreed, hbooks.mixed⟩
  · rw [hrow]
    split
    · rfl
    · exact hmerging.linked key event id hevent hincident

theorem Sound.merge {settings : Settings} {target : Nat} {value : List Nat} (hsound : db.Sound)
    (hmergeable : db.Mergeable target value)
    (hnext : db.merge settings target value = some next) : next.Sound := by
  obtain ⟨incident, hincident, hnext⟩ := Option.bind_eq_some_iff.mp hnext
  have hbooks := hsound.balanced target incident hincident
  have hmerging : db.Merging target incident 0 (db.others target value) :=
    ⟨hincident, ⟨_, hbooks.counted, rfl⟩, hbooks.ungrouped, hbooks.agreed, hbooks.mixed,
      fun other row _ hrow => hsound.balanced other row hrow, hsound.linked, hmergeable incident hincident⟩
  have hnot : ∀ other ∈ db.others target value, other ≠ target := by
    intro other hother
    have hcondition := (List.mem_filter.mp hother).2
    simp only [Bool.and_eq_true, decide_eq_true_eq] at hcondition
    exact hcondition.2
  have hmerged := hmerging.mergeAll hnot (db.incidents.nodup.filter _)
  rw [Nat.zero_add] at hmerged
  obtain ⟨count, hcount, hlength⟩ := hmerged.counted
  dsimp only at hnext
  split at hnext
  · cases hnext
  split at hnext
  · cases hnext
  split at hnext
  next hzero =>
    cases hnext
    rw [hzero] at hlength
    refine ⟨fun other row hrow => ?_, hmerged.linked⟩
    by_cases hother : other = target
    · rw [hother, hmerged.row] at hrow
      cases hrow
      rw [hother]
      refine ⟨?_, hmerged.ungrouped, hmerged.agreed, hmerged.mixed⟩
      rw [hcount, hlength]
      rfl
    · exact hmerged.apart other row hother hrow
  next =>
    rw [hmerged.row, Option.bind_some, Settings.eventCount_of_field hcount, Option.map_some] at hnext
    cases hnext
    refine hmerged.sound ?_ rfl (JsonFields.field_set_ne (by decide))
    rw [JsonFields.field_set_self, hlength]
    rfl

end Database

namespace Ledger

inductive Action where
  | publish (options : PublishOptions) (id : Nat) (event : Event) (fresh : Nat) (now : Time)
  | merge (target : Nat) (value : List Nat)
  | item (incident : Nat)

def step (settings : Settings) (db : Database) : Action → Option Database
  | .publish options id event fresh now => db.publish settings options id event fresh now
  | .merge target value => db.merge settings target value
  | .item incident => some { db with links := db.links ++ [incident] }

/-- The condition of a step: a merge brings no other group. -/
def Clean (settings : Settings) (db : Database) (action : Action) (_ : Database) : Prop :=
  match action with
  | .publish options id event _ now => db.Publishes settings options id event now
  | .merge target value => db.Mergeable target value
  | .item _ => True

def start : Database := ⟨.empty, .empty, []⟩

/-- Along publications and merges that meet the condition, the books balance. -/
theorem balanced_of_clean {settings : Settings} {actions : List Action}
    (hclean : EachStep (step settings) (Clean settings) start actions) :
    Always (step settings) Database.Balanced start actions := by
  have hstart : start.Sound := by
    refine ⟨fun _ _ hrow => ?_, fun _ _ _ hrow => ?_⟩ <;> cases hrow
  have halways : Always (step settings) Database.Sound start actions := by
    refine always_of_eachStep (fun db action next hsound hcondition hnext => ?_) hstart hclean
    cases action with
    | publish options id event fresh now => exact hsound.publish hcondition hnext
    | merge target value => exact hsound.merge hcondition hnext
    | item incident =>
      cases hnext
      refine ⟨fun id row hrow => ?_, hsound.linked⟩
      have hbooks := hsound.balanced id row hrow
      exact ⟨hbooks.counted, hbooks.ungrouped, hbooks.agreed, hbooks.mixed⟩
  exact halways.imp fun _ hsound => hsound.balanced

/-! ### Books that do not balance -/

def seededCount : List Action :=
  [.publish {} 1 { failedLogin with metadata := [("event_count", .int 7)] } 11 0]

/-- An event whose metadata has a mismatch, and one with a group after it. -/
def seededMismatch : List Action :=
  [.publish {} 1 { failedLogin with metadata := [("group_mismatch", .bool true)] } 11 0,
    .publish {} 2 { failedLogin with group := some 5 } 12 0]

def mixedMerge : List Action :=
  [.publish {} 1 { failedLogin with group := some 5 } 11 0,
    .publish {} 2 { failedLogin with group := some 6, sourceIp := some "203.0.113.10" } 12 0,
    .merge 11 [12]]

def counts (db : Database) (id : Nat) : Bool :=
  (db.incidents.get id).all fun incident =>
    match incident.metadata.field "event_count" with
    | some (.int count) => count = (db.linked id).length
    | _ => false

/-- The group of an incident, when the events are 1 and 2 and both are its own. -/
def grouped (db : Database) (id : Nat) (first second : Option Nat) (group : Option Nat) : Bool :=
  !(db.events.keys = [1, 2] &&
    (db.events.get 1).any (fun event => event.incident = some id && event.group = first) &&
    (db.events.get 2).any (fun event => event.incident = some id && event.group = second)) ||
  (db.incidents.get id).all fun incident => incident.group = group

theorem hasGroup_two {db : Database} {id group : Nat} {first second : Event}
    (hkeys : db.events.keys = [1, 2]) (hfirst : db.events.get 1 = some first)
    (hsecond : db.events.get 2 = some second) : db.HasGroup id group ↔
      (first.incident = some id ∧ first.group = some group) ∨
        (second.incident = some id ∧ second.group = some group) := by
  constructor
  · rintro ⟨key, event, hevent, hincident, hgroup⟩
    have hkey : key ∈ db.events.keys := (db.events.mem_keys key).mpr (by rw [hevent]; rfl)
    rw [hkeys, List.mem_pair] at hkey
    rcases hkey with rfl | rfl
    · rw [hfirst] at hevent
      cases hevent
      exact .inl ⟨hincident, hgroup⟩
    · rw [hsecond] at hevent
      cases hevent
      exact .inr ⟨hincident, hgroup⟩
  · rintro (⟨hincident, hgroup⟩ | ⟨hincident, hgroup⟩)
    · exact ⟨1, first, hfirst, hincident, hgroup⟩
    · exact ⟨2, second, hsecond, hincident, hgroup⟩

theorem grouped_of_balanced {db : Database} (hbalanced : db.Balanced) (id : Nat)
    {first second group : Option Nat}
    (hgroup : (first = none ∧ second.isSome ∧ group = second) ∨
      (first.isSome ∧ second.isSome ∧ first ≠ second ∧ group = none)) :
    grouped db id first second group = true := by
  rw [grouped, Bool.or_eq_true, Bool.not_eq_true', ← Bool.not_eq_true]
  refine or_iff_not_imp_left.mpr fun hboth => ?_
  rw [not_not] at hboth
  simp only [Bool.and_eq_true, decide_eq_true_eq, Option.any_eq_true] at hboth
  obtain ⟨⟨hkeys, one, hone, hincident, rfl⟩, two, htwo, hlinked, rfl⟩ := hboth
  have hgroups := fun known => @hasGroup_two db id known _ _ hkeys hone htwo
  rw [Option.all_eq_true]
  intro incident hrow
  have hbooks := hbalanced id incident hrow
  rw [decide_eq_true_eq]
  rcases hgroup with ⟨hnone, hsome, rfl⟩ | ⟨hfirst, hsecond, hne, rfl⟩
  · obtain ⟨known, hknown⟩ := Option.isSome_iff_exists.mp hsome
    rw [hknown]
    refine hbooks.agreed known ((hgroups known).mpr (.inr ⟨hlinked, hknown⟩)) fun other hother => ?_
    rcases (hgroups other).mp hother with ⟨_, heq⟩ | ⟨_, heq⟩
    · cases hnone.symm.trans heq
    · exact Option.some.inj (heq.symm.trans hknown)
  · obtain ⟨left, hleft⟩ := Option.isSome_iff_exists.mp hfirst
    obtain ⟨right, hright⟩ := Option.isSome_iff_exists.mp hsecond
    refine (hbooks.mixed ⟨left, right, (hgroups left).mpr (.inl ⟨hincident, hleft⟩),
      (hgroups right).mpr (.inr ⟨hlinked, hright⟩), fun heq => hne ?_⟩).1
    rw [hleft, hright, heq]

/-- Seeds and merges put the books out of balance. -/
theorem not_always_balanced :
    ¬ Always (step plainSettings) Database.Balanced start seededCount ∧
      ¬ Always (step plainSettings) Database.Balanced start seededMismatch ∧
      ¬ Always (step plainSettings) Database.Balanced start mixedMerge := by
  refine ⟨not_always_of_run (fun db => counts db 11) (fun db hbalanced => ?_) (by decide),
    not_always_of_run (fun db => grouped db 11 none (some 5) (some 5)) (fun db hbalanced => ?_)
      (by decide),
    not_always_of_run (fun db => grouped db 11 (some 5) (some 6) none) (fun db hbalanced => ?_)
      (by decide)⟩
  · rw [counts, Option.all_eq_true]
    intro incident hincident
    rw [(hbalanced 11 incident hincident).counted]
    exact decide_eq_true rfl
  · exact grouped_of_balanced hbalanced 11 (.inl ⟨rfl, rfl, rfl⟩)
  · exact grouped_of_balanced hbalanced 11 (.inr ⟨rfl, rfl, by decide, rfl⟩)

def agreedMerge : List Action :=
  [.publish {} 1 { failedLogin with group := some 5 } 11 0,
    .publish {} 2 { failedLogin with group := some 5, sourceIp := some "203.0.113.10" } 12 0,
    .merge 11 [12]]

def plainly (settings : Settings) (db : Database) : Action → Bool
  | .publish options id event _ now =>
    (db.events.get id).isNone &&
    match settings.route options event with
    | .bundle ruleSet =>
      (db.findBundle ruleSet event now).isNone &&
        settings.eventCount (newIncident ruleSet event.syncMetadata now).metadata = some 0
    | _ => true
  | .merge target value =>
    (db.incidents.get target).all fun incident => db.events.rows.all fun entry =>
      !(db.others target value).any (fun other => entry.2.incident = some other) ||
        entry.2.group = incident.group
  | .item _ => true

theorem clean_of_plainly {settings : Settings} {db next : Database} {action : Action}
    (hplainly : plainly settings db action = true) : Clean settings db action next := by
  cases action with
  | publish options id event fresh now =>
    rw [plainly, Bool.and_eq_true, Option.isNone_iff_eq_none] at hplainly
    obtain ⟨hnew, hroute⟩ := hplainly
    intro ruleSet hbundle
    rw [hbundle] at hroute
    simp only [Bool.and_eq_true, Option.isNone_iff_eq_none, decide_eq_true_eq] at hroute
    obtain ⟨hnone, hcount⟩ := hroute
    refine ⟨fun old hold => ?_, ?_⟩
    · rw [hnew] at hold
      cases hold
    · rw [hnone]
      exact hcount
  | merge target value =>
    intro incident hincident other hother group hgroup
    obtain ⟨key, event, hevent, hlinked, hknown⟩ := hgroup
    rw [plainly, Option.all_eq_true] at hplainly
    have hrow := List.all_eq_true.mp (hplainly incident hincident) (key, event)
      (Table.mem_rows.mpr hevent)
    rw [Bool.or_eq_true, Bool.not_eq_true', decide_eq_true_eq] at hrow
    rcases hrow with hnot | hsame
    · rw [List.any_eq_false] at hnot
      exact absurd (decide_eq_true hlinked) (hnot other hother)
    · exact .inr (hsame.symm.trans hknown)
  | item incident => exact trivial

theorem balanced_agreedMerge : Always (step plainSettings) Database.Balanced start agreedMerge := by
  have hplainly : EachStep (step plainSettings)
      (fun db action _ => plainly plainSettings db action = true) start agreedMerge := by
    decide
  exact balanced_of_clean (EachStep.imp (fun _ _ _ => clean_of_plainly) hplainly)

end Ledger

end DjangoMojo.Incidents
