import DjangoMojo.Foundation.Trace
import DjangoMojo.Incidents.Publish

/-! # When the handlers of a rule set run

Publications overlap. A lookup that finds the incident of the bundle waits for its row; a lookup
that finds none has nothing to wait for. As long as no two publications open an incident side
by side, the events of a bundle have one incident, and its handlers run at the counts that the
rule set names.
-/

namespace DjangoMojo.Incidents

open Foundation

structure Publishing where
  id : Nat
  event : Event
  ruleSet : Option RuleSet
  found : Option (Nat × Incident)

def Publishing.holds (publishing : Publishing) (incident : Nat) : Bool :=
  publishing.found.any fun found => found.1 = incident

structure System where
  db : Database
  underway : List Publishing := []
  dispatches : List Nat := []

inductive Action where
  /-- An event is saved and published, up to the lookup of its incident. -/
  | lookup (id : Nat) (event : Event) (now : Time)
  | commit (id : Nat) (fresh : Nat) (now : Time)

/-- A publication that looks up a row waits until no other one holds it. -/
def System.lookup (settings : Settings) (system : System) (id : Nat) (event : Event)
    (now : Time) : Option System :=
  if (system.db.events.get id).isSome || system.underway.any (fun publishing => publishing.id = id) then
    none
  else
    match settings.route {} event with
    | .bundle ruleSet =>
      let found := system.db.findBundle ruleSet event now
      if system.underway.any (fun publishing => found.any fun entry => publishing.holds entry.1) then
        none
      else some { system with underway := system.underway ++ [⟨id, event, ruleSet, found⟩] }
    | _ => some system

def System.commit (settings : Settings) (system : System) (id fresh : Nat) (now : Time) :
    Option System :=
  (system.underway.find? fun publishing => publishing.id = id).bind fun publishing =>
    (system.db.attach settings {} publishing.ruleSet id publishing.event publishing.found fresh
      now).map fun (db, dispatched) =>
        { db
          underway := system.underway.filter fun other => other.id ≠ id
          dispatches := if dispatched then system.dispatches ++ [id] else system.dispatches }

def step (settings : Settings) (system : System) : Action → Option System
  | .lookup id event now => system.lookup settings id event now
  | .commit id fresh now => system.commit settings id fresh now

/-! ### The law -/

def RuleSet.threshold (ruleSet : RuleSet) : Nat :=
  ruleSet.triggerCount.elim 1 fun trigger => (trigger : Nat)

def RuleSet.triggerLaw (ruleSet : RuleSet) (events : Nat) : Nat :=
  if events < ruleSet.threshold then 0
  else
    match ruleSet.retriggerEvery with
    | none => 1
    | some every => 1 + (events - ruleSet.threshold) / (every : Nat)

/-- The published events are linked to one incident, and the handlers ran as often as the law
says. -/
structure Triggered (ruleSet : RuleSet) (system : System) : Prop where
  together : ∃ incident, ∀ id event, system.db.events.get id = some event →
    event.incident = some incident
  dispatched : system.dispatches.length = ruleSet.triggerLaw system.db.events.count

/-- The rule set bundles events for ever, and has handlers. -/
structure RuleSet.BundlesForever (ruleSet : RuleSet) : Prop where
  bundles : ruleSet.bundleBy ≠ .none
  forever : ruleSet.bundleMinutes = none
  unbounded : ruleSet.triggerWindow = none

def OfBundle (settings : Settings) (ruleSet : RuleSet) (criteria : BundleCriteria)
    (_ : System) (action : Action) (_ : System) : Prop :=
  match action with
  | .lookup _ event now => settings.findRuleSet {} event = some ruleSet ∧
      event.bundleCriteria ruleSet now = criteria
  | .commit .. => True

/-- No lookup finds nothing while another publication is about to open an incident. -/
def OpensAlone (ruleSet : RuleSet) (system : System) (action : Action) (_ : System) : Prop :=
  match action with
  | .lookup _ event now => system.db.findBundle (some ruleSet) event now = none →
      ∀ publishing ∈ system.underway, publishing.found ≠ none
  | .commit .. => True

/-! ### The stages of an incident -/

theorem RuleSet.threshold_pos (ruleSet : RuleSet) : 0 < ruleSet.threshold := by
  unfold RuleSet.threshold
  cases ruleSet.triggerCount with
  | none => exact Nat.one_pos
  | some trigger => exact trigger.pos

theorem div_succ {every : Nat} (count : Nat) (hevery : 0 < every) :
    (count + 1) / every =
      if count / every * every + every ≤ count + 1 then count / every + 1 else count / every := by
  have hmod := Nat.div_add_mod count every
  have hlt := Nat.mod_lt count hevery
  rw [Nat.mul_comm] at hmod
  split
  next hle =>
    refine Nat.div_eq_of_lt_le ?_ ?_
    · rw [Nat.add_mul, Nat.one_mul]
      exact hle
    · rw [Nat.add_mul, Nat.add_mul, Nat.one_mul]
      omega
  next hgt =>
    refine Nat.div_eq_of_lt_le ?_ ?_
    · omega
    · rw [Nat.add_mul, Nat.one_mul]
      omega

namespace Incident

variable {settings : Settings} {ruleSet : RuleSet} {incident : Incident}

@[simp] theorem status_link (settings : Settings) (group : Option Nat) (incident : Incident) :
    (incident.link settings group).status = incident.status := by
  obtain ⟨metadata, known, heq⟩ := incident.link_cases settings group
  rw [heq]

theorem field_link {key : String} (hcount : key ≠ "event_count") (hmismatch : key ≠ "group_mismatch")
    (group : Option Nat) (incident : Incident) :
    (incident.link settings group).metadata.field key = incident.metadata.field key := by
  unfold link
  split
  · rfl
  dsimp only
  split
  · split
    · exact JsonFields.field_set_ne hcount
    · exact JsonFields.field_set_ne hcount
  · split
    · rw [JsonFields.field_set_ne hmismatch]
      exact JsonFields.field_set_ne hcount
    · exact JsonFields.field_set_ne hcount
  · exact JsonFields.field_set_ne hcount

theorem hold_metadata (trigger : Option ℕ+) (count : Nat) (incident : Incident) :
    (incident.hold trigger count).metadata = incident.metadata := by
  obtain ⟨status, heq⟩ := incident.hold_cases trigger count
  rw [heq]

/-- The status and the baseline of an incident with a number of events. -/
structure Stage (ruleSet : RuleSet) (count : Nat) (incident : Incident) : Prop where
  status : incident.status = if count < ruleSet.threshold then .pending else .new
  baseline : ∀ every : ℕ+, ruleSet.retriggerEvery = some every → ruleSet.threshold ≤ count →
    incident.metadata.field "last_trigger_count" = some (.int (ruleSet.threshold +
      (count - ruleSet.threshold) / (every : Nat) * (every : Nat) : Nat))

theorem status_hold {count : Nat} (hcount : 0 < count)
    (hstatus : incident.status = .new ∨ (incident.status = .pending ∧ ruleSet.triggerCount ≠ none)) :
    (incident.hold ruleSet.triggerCount count).status =
      if count < ruleSet.threshold then .pending else .new := by
  unfold hold
  cases htrigger : ruleSet.triggerCount with
  | none =>
    have hone : ruleSet.threshold = 1 := by rw [RuleSet.threshold, htrigger, Option.elim_none]
    rcases hstatus with hnew | ⟨_, hsome⟩
    · dsimp only
      rw [hone, if_neg (by omega)]
      exact hnew
    · exact absurd htrigger hsome
  | some trigger =>
    have hthreshold : ruleSet.threshold = trigger := by
      rw [RuleSet.threshold, htrigger, Option.elim_some]
    rw [hthreshold]
    dsimp only
    by_cases hbelow : count < (trigger : Nat)
    · rw [if_pos hbelow, if_pos hbelow]
    · rw [if_neg hbelow, if_neg hbelow]
      rcases hstatus with hnew | ⟨hpending, _⟩
      · rw [if_neg (by rw [hnew]; decide)]
        exact hnew
      · rw [if_pos hpending]

theorem field_noteTrigger (total : Nat) :
    (incident.noteTrigger total).metadata.field "last_trigger_count" = some (.int total) :=
  JsonFields.field_set_self

theorem trigger_below {created : Bool} {previous : Status} {count total : Nat}
    (hbelow : count < ruleSet.threshold) (hcount : 0 < count) (hstatus : incident.status = .pending) :
    incident.trigger ruleSet created previous count total = (incident, false) := by
  have hmeets : (ruleSet.triggerCount.all fun trigger => decide ((trigger : Nat) ≤ count)) = false := by
    unfold RuleSet.threshold at hbelow
    cases htrigger : ruleSet.triggerCount with
    | none =>
      rw [htrigger, Option.elim_none] at hbelow
      omega
    | some trigger =>
      rw [htrigger, Option.elim_some] at hbelow
      simpa using hbelow
  unfold trigger
  dsimp only
  rw [hmeets, hstatus]
  cases ruleSet.retriggerEvery with
  | none => simp
  | some every => simp

theorem trigger_reached {created : Bool} {previous : Status} {count total : Nat}
    (hreached : (created = true ∧ ruleSet.threshold ≤ count) ∨
      (previous = .pending ∧ incident.status = .new)) :
    incident.trigger ruleSet created previous count total =
      (if ruleSet.retriggerEvery.isSome then incident.noteTrigger total else incident, true) := by
  unfold trigger
  dsimp only
  rw [if_pos]
  rcases hreached with ⟨hcreated, hle⟩ | ⟨hprevious, hstatus⟩
  · unfold RuleSet.threshold at hle
    have hmeets : (ruleSet.triggerCount.all fun trigger => decide ((trigger : Nat) ≤ count)) = true := by
      cases htrigger : ruleSet.triggerCount with
      | none => rfl
      | some trigger =>
        rw [htrigger, Option.elim_some] at hle
        simpa using hle
    rw [hcreated, hmeets]
    rfl
  · rw [hprevious, hstatus]
    simp

theorem trigger_past {count total baseline : Nat} (hstatus : incident.status = .new)
    (hbaseline : ∀ every : ℕ+, ruleSet.retriggerEvery = some every →
      incident.metadata.field "last_trigger_count" = some (.int baseline))
    (hpos : 0 < baseline) :
    incident.trigger ruleSet false .new count total =
      match ruleSet.retriggerEvery with
      | some every => if baseline + (every : Nat) ≤ total then (incident.noteTrigger total, true)
          else (incident, false)
      | none => (incident, false) := by
  unfold trigger
  dsimp only
  rw [if_neg (by simp)]
  cases hevery : ruleSet.retriggerEvery with
  | none => rfl
  | some every =>
    have hlast : lastTriggerCount ruleSet.triggerCount incident.metadata = baseline := by
      unfold lastTriggerCount
      rw [hbaseline every hevery]
      dsimp only
      rw [if_neg (by omega)]
    dsimp only
    rw [hstatus, hlast]
    by_cases hle : baseline + (every : Nat) ≤ total
    · rw [if_pos hle, if_pos]
      simp only [List.mem_cons, true_or, decide_true, Bool.true_and, decide_eq_true_iff]
      exact_mod_cast hle
    · rw [if_neg hle, if_neg]
      simp only [List.mem_cons, true_or, decide_true, Bool.true_and, decide_eq_true_iff]
      exact_mod_cast hle

end Incident

/-! ### One event more -/

theorem RuleSet.triggerLaw_below {ruleSet : RuleSet} {count : Nat} (hbelow : count < ruleSet.threshold) :
    ruleSet.triggerLaw count = 0 := if_pos hbelow

theorem RuleSet.triggerLaw_threshold (ruleSet : RuleSet) :
    ruleSet.triggerLaw ruleSet.threshold = 1 := by
  unfold RuleSet.triggerLaw
  rw [if_neg (lt_irrefl _), Nat.sub_self]
  cases ruleSet.retriggerEvery with
  | none => rfl
  | some every => simp

namespace Incident

variable {settings : Settings} {ruleSet : RuleSet} {incident : Incident}

theorem stage_first (group : Option Nat) (hnew : incident.status = .new) :
    let result := ((incident.hold ruleSet.triggerCount 1).link settings group).trigger ruleSet true
      .new 1 1
    result.1.Stage ruleSet 1 ∧ ruleSet.triggerLaw 1 = if result.2 then 1 else 0 := by
  have hpos := ruleSet.threshold_pos
  have hstatus : ((incident.hold ruleSet.triggerCount 1).link settings group).status =
      if 1 < ruleSet.threshold then .pending else .new := by
    rw [status_link, status_hold Nat.one_pos (.inl hnew)]
  generalize (incident.hold ruleSet.triggerCount 1).link settings group = held at hstatus
  dsimp only
  by_cases hbelow : 1 < ruleSet.threshold
  · rw [if_pos hbelow] at hstatus
    rw [trigger_below hbelow Nat.one_pos hstatus, RuleSet.triggerLaw_below hbelow]
    refine ⟨⟨?_, fun every _ hle => absurd hle (by omega)⟩, rfl⟩
    rw [if_pos hbelow]
    exact hstatus
  · rw [if_neg hbelow] at hstatus
    have hone : ruleSet.threshold = 1 := by omega
    rw [trigger_reached (.inl ⟨rfl, by omega⟩)]
    refine ⟨⟨?_, fun every hevery _ => ?_⟩, ?_⟩
    · rw [if_neg hbelow]
      split
      · exact hstatus
      · exact hstatus
    · rw [hevery, Option.isSome_some, if_pos rfl, hone]
      simpa using field_noteTrigger 1
    · have hlaw := ruleSet.triggerLaw_threshold
      rw [hone] at hlaw
      rw [hlaw]
      rfl

theorem Stage.next {count : Nat} (hstage : incident.Stage ruleSet count) (hcount : 0 < count)
    (group : Option Nat) :
    let result := ((incident.hold ruleSet.triggerCount (count + 1)).link settings group).trigger
      ruleSet false incident.status (count + 1) (count + 1)
    result.1.Stage ruleSet (count + 1) ∧
      ruleSet.triggerLaw (count + 1) = ruleSet.triggerLaw count + if result.2 then 1 else 0 := by
  have hpos := ruleSet.threshold_pos
  have hstatus : ((incident.hold ruleSet.triggerCount (count + 1)).link settings group).status =
      if count + 1 < ruleSet.threshold then .pending else .new := by
    rw [status_link, status_hold (Nat.succ_pos _)]
    rw [hstage.status]
    by_cases hbelow : count < ruleSet.threshold
    · refine .inr ⟨if_pos hbelow, fun hnone => ?_⟩
      rw [RuleSet.threshold, hnone, Option.elim_none] at hbelow
      omega
    · exact .inl (if_neg hbelow)
  have hfield : ((incident.hold ruleSet.triggerCount (count + 1)).link settings group).metadata.field
      "last_trigger_count" = incident.metadata.field "last_trigger_count" := by
    rw [field_link (by decide) (by decide), hold_metadata]
  generalize (incident.hold ruleSet.triggerCount (count + 1)).link settings group = held
    at hstatus hfield
  dsimp only
  by_cases hbelow : count + 1 < ruleSet.threshold
  · rw [if_pos hbelow] at hstatus
    rw [trigger_below hbelow (Nat.succ_pos _) hstatus, RuleSet.triggerLaw_below hbelow,
      RuleSet.triggerLaw_below (by omega)]
    refine ⟨⟨?_, fun every _ hle => absurd hle (by omega)⟩, rfl⟩
    rw [if_pos hbelow]
    exact hstatus
  rw [if_neg hbelow] at hstatus
  by_cases hreached : count < ruleSet.threshold
  · have hthreshold : ruleSet.threshold = count + 1 := by omega
    have hpending : incident.status = .pending := by rw [hstage.status, if_pos hreached]
    rw [trigger_reached (.inr ⟨hpending, hstatus⟩)]
    refine ⟨⟨?_, fun every hevery _ => ?_⟩, ?_⟩
    · rw [if_neg hbelow]
      split
      · exact hstatus
      · exact hstatus
    · rw [hevery, Option.isSome_some, if_pos rfl, hthreshold, field_noteTrigger, Nat.sub_self,
        Nat.zero_div, Nat.zero_mul, Nat.add_zero]
    · rw [← hthreshold, ruleSet.triggerLaw_threshold, RuleSet.triggerLaw_below hreached]
      rfl
  · have hnew : incident.status = .new := by rw [hstage.status, if_neg hreached]
    have hpast : ruleSet.threshold ≤ count := by omega
    rw [hnew]
    cases hevery : ruleSet.retriggerEvery with
    | none =>
      have hlaw : ∀ events, ruleSet.threshold ≤ events → ruleSet.triggerLaw events = 1 := by
        intro events hle
        rw [RuleSet.triggerLaw, if_neg (by omega), hevery]
      rw [@trigger_past ruleSet held _ _ 1 hstatus
        (fun every hsome => by rw [hevery] at hsome; cases hsome) Nat.one_pos, hevery,
        hlaw _ (by omega), hlaw _ hpast]
      refine ⟨⟨?_, fun every hsome => by rw [hevery] at hsome; cases hsome⟩, rfl⟩
      rw [if_neg hbelow]
      exact hstatus
    | some every =>
      have hbaseline := hstage.baseline every hevery hpast
      rw [← hfield] at hbaseline
      have hlaw : ∀ events, ruleSet.threshold ≤ events →
          ruleSet.triggerLaw events = 1 + (events - ruleSet.threshold) / (every : Nat) := by
        intro events hle
        rw [RuleSet.triggerLaw, if_neg (by omega), hevery]
      have hdiv := div_succ (count - ruleSet.threshold) every.pos
      have hsub : count + 1 - ruleSet.threshold = count - ruleSet.threshold + 1 := by omega
      have hrounds := Nat.div_mul_le_self (count - ruleSet.threshold) every
      rw [hlaw _ (by omega), hlaw _ hpast, hsub, hdiv]
      generalize hquotient : (count - ruleSet.threshold) / (every : Nat) = rounds
        at hbaseline hdiv hrounds
      have htrigger := @trigger_past ruleSet held (count + 1) (count + 1) _ hstatus
        (fun other hsome => by
          rw [hevery] at hsome
          cases hsome
          exact hbaseline) (by omega)
      rw [hevery] at htrigger
      dsimp only at htrigger
      by_cases hle : rounds * (every : Nat) + (every : Nat) ≤ count - ruleSet.threshold + 1
      · rw [if_pos (by omega)] at htrigger
        rw [if_pos hle] at hdiv ⊢
        rw [htrigger]
        refine ⟨⟨?_, fun other hsome _ => ?_⟩, by dsimp only; rw [if_pos rfl]; omega⟩
        · rw [if_neg hbelow]
          exact hstatus
        · rw [hevery] at hsome
          cases hsome
          have hsum : ruleSet.threshold + (rounds * (every : Nat) + every) = count + 1 := by
            have hlt := @Nat.lt_div_mul_add (count - ruleSet.threshold) every every.pos
            rw [hquotient] at hlt
            omega
          rw [hsub, hdiv, Nat.add_mul, Nat.one_mul, hsum]
          exact field_noteTrigger (count + 1)
      · rw [if_neg (by omega)] at htrigger
        rw [if_neg hle] at hdiv ⊢
        rw [htrigger]
        refine ⟨⟨?_, fun other hsome _ => ?_⟩, rfl⟩
        · rw [if_neg hbelow]
          exact hstatus
        · rw [hevery] at hsome
          cases hsome
          rw [hsub, hdiv]
          exact hbaseline

end Incident

/-! ### The incident of a bundle -/

namespace BundleCriteria

variable {criteria : BundleCriteria} {incident other : Incident}

theorem selects_congr (hsame : incident.SameBundle other)
    (hgroup : criteria.group = none ∨ other.group = incident.group) :
    criteria.selects other = criteria.selects incident := by
  obtain ⟨hcreated, hcategory, hruleSet, hhostname, hmodelName, hmodelId, hsourceIp⟩ := hsame
  unfold selects
  rw [hcreated, hcategory, hruleSet, hhostname, hmodelName, hmodelId, hsourceIp]
  rcases hgroup with hnone | hgroup
  · rw [hnone]
    rfl
  · rw [hgroup]

end BundleCriteria

theorem Event.selects_newIncident {ruleSet : RuleSet} (hforever : ruleSet.bundleMinutes = none)
    (event : Event) (now opened : Time) :
    (event.bundleCriteria ruleSet now).selects
      (newIncident (some ruleSet) event.syncMetadata opened) = true := by
  unfold BundleCriteria.selects bundleCriteria newIncident syncMetadata
  rw [hforever]
  dsimp only [Option.filter_none, Option.map_none, Option.all_none, Option.map_some]
  simp only [decide_true, Bool.true_and, Bool.and_true, Bool.and_eq_true, reduceCtorEq, if_false,
    Option.all_none]
  refine ⟨⟨⟨⟨⟨?_, ?_⟩, ?_⟩, ?_⟩, ?_⟩, ?_⟩ <;> (split <;> simp)

theorem Incident.group_link {incident : Incident} {group : Option Nat} (settings : Settings)
    (hgroup : incident.group = group) : (incident.link settings group).group = incident.group := by
  subst hgroup
  unfold link
  split
  · rfl
  dsimp only
  cases hgroup : incident.group with
  | none => rfl
  | some known =>
    dsimp only
    rw [if_neg fun hne => hne rfl]

theorem Incident.selects_handled {criteria : BundleCriteria} {settings : Settings}
    {ruleSet : RuleSet} {incident : Incident} {group : Option Nat} {created : Bool}
    {previous : Status} {count total : Nat} (hselects : criteria.selects incident = true)
    (hgroup : criteria.group = none ∨ incident.group = group) :
    criteria.selects (((incident.hold ruleSet.triggerCount count).link settings group).trigger
      ruleSet created previous count total).1 = true := by
  obtain ⟨status, hhold⟩ := incident.hold_cases ruleSet.triggerCount count
  have hlinked := (incident.hold ruleSet.triggerCount count).link_cases settings group
  obtain ⟨metadata, known, hlink⟩ := hlinked
  have hknown : criteria.group = none ∨ known = incident.group := by
    refine hgroup.imp_right fun hsame => ?_
    have hkept := @group_link (incident.hold ruleSet.triggerCount count) group settings
      (by rw [hhold]; exact hsame)
    rw [hlink, hhold] at hkept
    exact hkept
  rw [← hselects]
  rw [hlink, hhold]
  rcases trigger_cases { incident with status, metadata, group := known } ruleSet created previous
    count total with heq | heq
  · rw [heq]
    exact BundleCriteria.selects_congr ⟨rfl, rfl, rfl, rfl, rfl, rfl, rfl⟩ hknown
  · rw [heq]
    exact BundleCriteria.selects_congr ⟨rfl, rfl, rfl, rfl, rfl, rfl, rfl⟩ hknown

/-! ### Runs -/

namespace Database

variable {db : Database}

def selected (db : Database) (criteria : BundleCriteria) : Option (Nat × Incident) :=
  (db.incidents.rows.filter fun entry => criteria.selects entry.2).argmin Prod.fst

theorem selected_none {criteria : BundleCriteria} (hnone : ∀ id, db.incidents.get id = none) :
    db.selected criteria = none := by
  rw [selected, List.argmin_eq_none, List.filter_eq_nil_iff]
  intro entry hentry
  cases (Table.mem_rows.mp hentry).symm.trans (hnone entry.1)

theorem selected_some {criteria : BundleCriteria} {id : Nat} {incident : Incident}
    (hrow : db.incidents.get id = some incident) (hselects : criteria.selects incident = true)
    (honly : ∀ other row, db.incidents.get other = some row → other = id) :
    db.selected criteria = some (id, incident) := by
  cases hselected : db.selected criteria with
  | none =>
    rw [selected, List.argmin_eq_none, List.filter_eq_nil_iff] at hselected
    exact absurd hselects (hselected (id, incident) (Table.mem_rows.mpr hrow))
  | some entry =>
    obtain ⟨other, row⟩ := entry
    have hmem := (List.mem_filter.mp (List.argmin_mem hselected)).1
    have hother := Table.mem_rows.mp hmem
    have hid := honly other row hother
    subst hid
    rw [Option.some.inj (hrow.symm.trans hother)]

/-- The events that are published are those of one incident. -/
def Together (db : Database) (id : Nat) : Prop :=
  ∀ key event, db.events.get key = some event → event.incident = some id

theorem Together.length_linked {id : Nat} (htogether : db.Together id) :
    (db.linked id).length = db.events.count := by
  have hall : db.linked id = db.events.rows := by
    rw [linked, List.filter_eq_self]
    intro entry hentry
    exact decide_eq_true (htogether entry.1 entry.2 (Table.mem_rows.mp hentry))
  rw [hall, Table.length_rows]

theorem Together.put {id key : Nat} (htogether : db.Together id) (event : Event) :
    ({ db with events := db.events.put key { event with incident := some id } } :
      Database).Together id := by
  intro other found hfound
  rw [Table.get_put] at hfound
  split at hfound
  · cases hfound
    rfl
  · exact htogether other found hfound

theorem handle_eq {settings : Settings} {ruleSet : RuleSet} {key id : Nat} {event : Event}
    {incident : Incident} {created : Bool} {now : Time} (hbundles : ruleSet.BundlesForever)
    (htogether : db.Together id) (habsent : db.events.get key = none) :
    let count := db.events.count + 1
    let result := ((incident.hold ruleSet.triggerCount count).link settings event.group).trigger
      ruleSet created incident.status count count
    db.handle settings {} (some ruleSet) key event id incident created now =
      ({ db with
        incidents := db.incidents.put id result.1
        events := db.events.put key { event with incident := some id } }, result.2) := by
  have hcount : db.countEvents ruleSet id now = db.events.count := by
    unfold countEvents
    rw [hbundles.unbounded, hbundles.forever]
    exact htogether.length_linked
  have htotal : (({ db with events := db.events.put key { event with incident := some id } } :
      Database).linked id).length = db.events.count + 1 := by
    rw [(htogether.put event).length_linked]
    have hput := db.events.count_put key { event with incident := some id }
    rw [habsent] at hput
    exact hput
  unfold handle
  dsimp only
  rw [hcount, htotal, Bool.and_true]

end Database

/-- At most one publication is under way, and it works on the incident of the bundle. -/
structure Lawful (ruleSet : RuleSet) (criteria : BundleCriteria) (system : System) : Prop where
  books : ((∀ id, system.db.incidents.get id = none) ∧ system.db.events.count = 0 ∧
      system.dispatches = []) ∨
    ∃ id incident, system.db.incidents.get id = some incident ∧
      (∀ other row, system.db.incidents.get other = some row → other = id) ∧
      criteria.selects incident = true ∧ incident.Stage ruleSet system.db.events.count ∧
      0 < system.db.events.count ∧ system.db.Together id ∧
      system.dispatches.length = ruleSet.triggerLaw system.db.events.count
  alone : system.underway.length ≤ 1
  current : ∀ publishing ∈ system.underway, publishing.ruleSet = some ruleSet ∧
    (∃ now, publishing.event.bundleCriteria ruleSet now = criteria) ∧
    publishing.found = system.db.selected criteria ∧
    system.db.events.get publishing.id = none

theorem findBundle_eq {db : Database} {ruleSet : RuleSet} {event : Event} {now : Time}
    (hbundles : ruleSet.BundlesForever) : db.findBundle (some ruleSet) event now =
      db.selected (event.bundleCriteria ruleSet now) := by
  unfold Database.findBundle
  dsimp only
  rw [if_neg hbundles.bundles]
  rfl

section

variable {settings : Settings} {ruleSet : RuleSet} {criteria : BundleCriteria}
variable {system next : System}

theorem Lawful.lookup {id : Nat} {event : Event} {now : Time} (hbundles : ruleSet.BundlesForever)
    (hhandles : ruleSet.ignores = false) (hlawful : Lawful ruleSet criteria system)
    (hmatches : settings.findRuleSet {} event = some ruleSet)
    (hcriteria : event.bundleCriteria ruleSet now = criteria)
    (hopens : system.db.findBundle (some ruleSet) event now = none →
      ∀ publishing ∈ system.underway, publishing.found ≠ none)
    (hnext : system.lookup settings id event now = some next) : Lawful ruleSet criteria next := by
  have hroute : settings.route {} event = .bundle (some ruleSet) := by
    rw [Settings.route, hmatches]
    dsimp only
    rw [hhandles]
    rfl
  unfold System.lookup at hnext
  rw [hroute] at hnext
  split at hnext
  · cases hnext
  next hunknown =>
  dsimp only at hnext
  split at hnext
  · cases hnext
  next hfree =>
  cases hnext
  rw [findBundle_eq hbundles, hcriteria] at hopens hfree ⊢
  have hempty : system.underway = [] := by
    rw [List.eq_nil_iff_forall_not_mem]
    intro publishing hmem
    obtain ⟨_, _, hfound, _⟩ := hlawful.current publishing hmem
    cases hselected : system.db.selected criteria with
    | none => exact hopens hselected publishing hmem (hfound.trans hselected)
    | some entry =>
      refine hfree (List.any_eq_true.mpr ⟨publishing, hmem, ?_⟩)
      rw [hselected, Option.any_some, Publishing.holds, hfound, hselected, Option.any_some]
      exact decide_eq_true rfl
  rw [Bool.or_eq_true, not_or, Bool.not_eq_true, Option.isSome_eq_false_iff,
    Option.isNone_iff_eq_none] at hunknown
  refine ⟨hlawful.books, ?_, ?_⟩
  · rw [hempty]
    exact Nat.le_refl 1
  · intro publishing hmem
    rw [hempty, List.nil_append, List.mem_singleton] at hmem
    subst hmem
    exact ⟨rfl, ⟨now, hcriteria⟩, rfl, hunknown.1⟩

theorem Lawful.handled {db : Database} {key id : Nat} {event : Event} {triggered : Incident}
    {underway : List Publishing} {ids : List Nat}
    (hselects : criteria.selects triggered = true)
    (hstage : triggered.Stage ruleSet (db.events.count + 1)) (htogether : db.Together id)
    (honly : ∀ other row, db.incidents.get other = some row → other = id)
    (habsent : db.events.get key = none)
    (hlaw : ids.length = ruleSet.triggerLaw (db.events.count + 1)) (hempty : underway = []) :
    Lawful ruleSet criteria ⟨{ db with
      incidents := db.incidents.put id triggered
      events := db.events.put key { event with incident := some id } }, underway, ids⟩ := by
  have hcount : (db.events.put key { event with incident := some id }).count =
      db.events.count + 1 := by
    have hput := db.events.count_put key { event with incident := some id }
    rw [habsent] at hput
    exact hput
  refine ⟨.inr ⟨id, triggered, by rw [Table.get_put, if_pos rfl], ?_, hselects, ?_, ?_, ?_, ?_⟩, ?_, ?_⟩
  · intro other row hrow
    rw [Table.get_put] at hrow
    split at hrow
    next heq => exact heq
    · exact honly other row hrow
  · rw [hcount]
    exact hstage
  · rw [hcount]
    exact Nat.succ_pos _
  · exact htogether.put event
  · rw [hcount]
    exact hlaw
  · rw [hempty]
    exact Nat.zero_le 1
  · rw [hempty]
    exact fun publishing hmem => absurd hmem List.not_mem_nil

theorem Incident.Stage.escalate {count : Nat} {incident : Incident}
    (hstage : incident.Stage ruleSet count) (level : Int) :
    (incident.escalate level).Stage ruleSet count := by
  obtain ⟨priority, heq⟩ := incident.escalate_cases level
  rw [heq]
  exact ⟨hstage.status, hstage.baseline⟩

theorem filter_alone {publishing : Publishing} {others : List Publishing}
    (halone : others.length ≤ 1) (hmem : publishing ∈ others) :
    others.filter (fun other => other.id ≠ publishing.id) = [] := by
  cases others with
  | nil => cases hmem
  | cons only rest =>
    have hrest : rest = [] := by
      rw [List.length_cons] at halone
      exact List.length_eq_zero_iff.mp (by omega)
    subst hrest
    rw [List.mem_singleton] at hmem
    subst hmem
    simp

theorem Lawful.commit_opened {publishing : Publishing} {fresh : Nat} {now : Time} {db : Database}
    {dispatched : Bool} (hbundles : ruleSet.BundlesForever)
    (hnone : ∀ id, system.db.incidents.get id = none) (hzero : system.db.events.count = 0)
    (hcriteria : ∃ seen, publishing.event.bundleCriteria ruleSet seen = criteria)
    (habsent : system.db.events.get publishing.id = none)
    (hattach : system.db.attach settings {} (some ruleSet) publishing.id publishing.event none fresh
      now = some (db, dispatched)) :
    Lawful ruleSet criteria ⟨db, [], if dispatched then [publishing.id] else []⟩ := by
  unfold Database.attach at hattach
  dsimp only at hattach
  rw [hnone, if_neg (by simp), Option.some.injEq] at hattach
  have htogether : system.db.Together fresh := by
    intro key event hevent
    have hkeys : system.db.events.keys = [] := List.length_eq_zero_iff.mp hzero
    have hkey := (system.db.events.mem_keys key).mpr (by rw [hevent]; rfl)
    rw [hkeys] at hkey
    cases hkey
  rw [Database.handle_eq hbundles htogether habsent] at hattach
  obtain ⟨seen, rfl⟩ := hcriteria
  have hselects := publishing.event.selects_newIncident hbundles.forever seen now
  have hstatus : (newIncident (some ruleSet) publishing.event.syncMetadata now).status = .new := rfl
  have hgroup : (newIncident (some ruleSet) publishing.event.syncMetadata now).group =
      publishing.event.syncMetadata.group := rfl
  generalize newIncident (some ruleSet) publishing.event.syncMetadata now = incident
    at hattach hselects hstatus hgroup
  generalize publishing.event.syncMetadata = event at hattach hgroup
  have hfirst := @Incident.stage_first settings ruleSet incident event.group hstatus
  have hkept := @Incident.selects_handled _ settings ruleSet incident event.group true .new 1 1
    hselects (.inr hgroup)
  dsimp only at hattach hfirst
  rw [hzero, hstatus] at hattach
  generalize Incident.trigger ruleSet true .new 1 1 _ = result at hattach hfirst hkept
  obtain ⟨rfl, rfl⟩ := Prod.mk.inj hattach
  refine Lawful.handled hkept (by rw [hzero]; exact hfirst.1) htogether
    (fun other row hrow => ?_) habsent ?_ rfl
  · cases (hnone other).symm.trans hrow
  · rw [hzero, hfirst.2]
    cases result.2 with
    | true => rfl
    | false => rfl

theorem Lawful.commit_found {publishing : Publishing} {id fresh : Nat} {incident : Incident}
    {now : Time} {db : Database} {dispatched : Bool} (hbundles : ruleSet.BundlesForever)
    (honly : ∀ other row, system.db.incidents.get other = some row → other = id)
    (hselects : criteria.selects incident = true)
    (hstage : incident.Stage ruleSet system.db.events.count) (hpos : 0 < system.db.events.count)
    (htogether : system.db.Together id)
    (hlaw : system.dispatches.length = ruleSet.triggerLaw system.db.events.count)
    (hcriteria : ∃ seen, publishing.event.bundleCriteria ruleSet seen = criteria)
    (habsent : system.db.events.get publishing.id = none)
    (hattach : system.db.attach settings {} (some ruleSet) publishing.id publishing.event
      (some (id, incident)) fresh now = some (db, dispatched)) :
    Lawful ruleSet criteria ⟨db, [], if dispatched then system.dispatches ++ [publishing.id]
      else system.dispatches⟩ := by
  unfold Database.attach at hattach
  dsimp only at hattach
  rw [Option.some.injEq, Database.handle_eq hbundles htogether habsent] at hattach
  have hgroup : criteria.group = none ∨
      (incident.escalate publishing.event.level).group = publishing.event.group := by
    obtain ⟨seen, rfl⟩ := hcriteria
    obtain ⟨priority, heq⟩ := incident.escalate_cases publishing.event.level
    rw [heq]
    unfold BundleCriteria.selects at hselects
    rw [Bool.and_eq_true] at hselects
    have hlast := hselects.2
    unfold Event.bundleCriteria at hlast ⊢
    dsimp only at hlast ⊢
    split at hlast
    · rw [Option.all_some, decide_eq_true_iff] at hlast
      exact .inr hlast
    next hgroup => exact .inl (if_neg hgroup)
  have hsame : criteria.selects (incident.escalate publishing.event.level) = true := by
    obtain ⟨priority, heq⟩ := incident.escalate_cases publishing.event.level
    rw [← hselects, heq]
    exact BundleCriteria.selects_congr ⟨rfl, rfl, rfl, rfl, rfl, rfl, rfl⟩ (.inr rfl)
  have hstep := @Incident.Stage.next settings ruleSet _ _ (hstage.escalate publishing.event.level)
    hpos publishing.event.group
  have hkept := @Incident.selects_handled _ settings ruleSet _ _ false
    (incident.escalate publishing.event.level).status (system.db.events.count + 1)
    (system.db.events.count + 1) hsame hgroup
  dsimp only at hattach hstep
  generalize Incident.trigger ruleSet false _ _ _ _ = result at hattach hstep hkept
  obtain ⟨rfl, rfl⟩ := Prod.mk.inj hattach
  refine Lawful.handled hkept hstep.1 htogether honly habsent ?_ rfl
  rw [hstep.2, ← hlaw]
  cases result.2 with
  | true => exact List.length_append
  | false => rfl

theorem Lawful.commit {id fresh : Nat} {now : Time} (hbundles : ruleSet.BundlesForever)
    (hlawful : Lawful ruleSet criteria system)
    (hnext : system.commit settings id fresh now = some next) : Lawful ruleSet criteria next := by
  obtain ⟨publishing, hfind, hnext⟩ := Option.bind_eq_some_iff.mp hnext
  obtain ⟨⟨db, dispatched⟩, hattach, hnext⟩ := Option.map_eq_some_iff.mp hnext
  have hmem := List.mem_of_find?_eq_some hfind
  have hid : publishing.id = id := by simpa using List.find?_some hfind
  subst hid
  obtain ⟨hruleSet, hcriteria, hfound, habsent⟩ := hlawful.current publishing hmem
  dsimp only at hnext
  rw [filter_alone hlawful.alone hmem] at hnext
  rw [hruleSet] at hattach
  subst hnext
  rcases hlawful.books with ⟨hnone, hzero, hnever⟩ | ⟨known, incident, hrow, honly, hselects, hstage,
    hpos, htogether, hlaw⟩
  · rw [hfound, Database.selected_none hnone] at hattach
    rw [hnever]
    exact Lawful.commit_opened hbundles hnone hzero hcriteria habsent hattach
  · rw [hfound, Database.selected_some hrow hselects honly] at hattach
    exact Lawful.commit_found hbundles honly hselects hstage hpos htogether hlaw hcriteria habsent
      hattach

theorem Lawful.triggered (hlawful : Lawful ruleSet criteria system) : Triggered ruleSet system := by
  rcases hlawful.books with ⟨_, hzero, hnever⟩ | ⟨known, _, _, _, _, _, _, htogether, hlaw⟩
  · refine ⟨⟨0, fun id event hevent => ?_⟩, ?_⟩
    · have hkeys : system.db.events.keys = [] := List.length_eq_zero_iff.mp hzero
      have hkey := (system.db.events.mem_keys id).mpr (by rw [hevent]; rfl)
      rw [hkeys] at hkey
      cases hkey
    · rw [hzero, hnever, RuleSet.triggerLaw_below ruleSet.threshold_pos]
      rfl
  · exact ⟨⟨known, htogether⟩, hlaw⟩

end

def System.start : System where
  db := ⟨.empty, .empty, []⟩

/-- As long as no lookup finds nothing beside a publication that is about to open an incident,
the events of a bundle are linked to one incident, and the handlers run as the law says. -/
theorem triggered_of_opensAlone (settings : Settings) {ruleSet : RuleSet}
    (hbundles : ruleSet.BundlesForever) (hhandles : ruleSet.ignores = false)
    {criteria : BundleCriteria} {actions : List Action}
    (hevents : EachStep (step settings) (OfBundle settings ruleSet criteria) System.start actions)
    (halone : EachStep (step settings) (OpensAlone ruleSet) System.start actions) :
    Always (step settings) (Triggered ruleSet) System.start actions := by
  have hstart : Lawful ruleSet criteria System.start := by
    refine ⟨.inl ⟨fun _ => rfl, rfl, rfl⟩, Nat.zero_le 1, fun _ hmem => ?_⟩
    cases hmem
  have halways : Always (step settings) (Lawful ruleSet criteria) System.start actions := by
    refine always_of_eachStep (fun system action next hlawful hcondition hnext => ?_) hstart
      (hevents.and halone)
    obtain ⟨hevent, hopens⟩ := hcondition
    cases action with
    | lookup id event now =>
      exact hlawful.lookup hbundles hhandles hevent.1 hevent.2 hopens hnext
    | commit id fresh now => exact hlawful.commit hbundles hnext
  exact halways.imp fun _ hlawful => hlawful.triggered

/-! ### Two incidents for one bundle -/

def blockRules : RuleSet where
  id := 1
  category := "auth"
  handler := some "block://"
  bundleBy := .sourceIp
  bundleMinutes := none

/-- Settings with one rule set, which every event of its category matches. -/
def plainSettings : Settings where
  ruleSets := [blockRules]
  checkRules := fun _ _ => true
  readInt := fun
    | .int value => some value
    | .bool value => some value.toInt
    | _ => none
  readInt_int := fun _ => rfl

def failedLogin : Event where
  created := 0
  category := "auth"
  sourceIp := some "203.0.113.9"

def sideBySide : List Action :=
  [.lookup 1 failedLogin 0, .lookup 2 failedLogin 0, .commit 1 11 0, .commit 2 12 0]

theorem blockRules_bundlesForever : blockRules.BundlesForever := ⟨by decide, rfl, rfl⟩

/-- The law fails where two publications open an incident side by side. -/
theorem not_always_triggered : ¬ ∀ (settings : Settings) (ruleSet : RuleSet)
    (criteria : BundleCriteria) (actions : List Action), ruleSet.BundlesForever →
    ruleSet.ignores = false →
    EachStep (step settings) (OfBundle settings ruleSet criteria) System.start actions →
    Always (step settings) (Triggered ruleSet) System.start actions := by
  intro hall
  refine not_always_of_run (fun system => system.dispatches.length =
    blockRules.triggerLaw system.db.events.count) (fun system htriggered => ?_) ?_
    (hall plainSettings blockRules (failedLogin.bundleCriteria blockRules 0) sideBySide
      blockRules_bundlesForever (by decide)
      fun _ _ => ⟨⟨rfl, rfl⟩, fun _ _ => ⟨⟨rfl, rfl⟩, fun _ _ => ⟨trivial, fun _ _ =>
        ⟨trivial, trivial⟩⟩⟩⟩)
  · exact decide_eq_true htriggered.dispatched
  · decide

instance OpensAlone.decidable (ruleSet : RuleSet) (system : System) (action : Action)
    (next : System) : Decidable (OpensAlone ruleSet system action next) :=
  match action with
  | .lookup _ event now =>
    inferInstanceAs (Decidable (system.db.findBundle (some ruleSet) event now = none →
      ∀ publishing ∈ system.underway, publishing.found ≠ none))
  | .commit .. => isTrue trivial

def oneByOne : List Action :=
  [.lookup 1 failedLogin 0, .commit 1 11 0, .lookup 2 failedLogin 0, .commit 2 12 0]

theorem triggered_oneByOne :
    Always (step plainSettings) (Triggered blockRules) System.start oneByOne := by
  have hevents : EachStep (step plainSettings)
      (OfBundle plainSettings blockRules (failedLogin.bundleCriteria blockRules 0)) System.start
      oneByOne :=
    fun _ _ => ⟨⟨rfl, rfl⟩, fun _ _ => ⟨trivial, fun _ _ => ⟨⟨rfl, rfl⟩, fun _ _ =>
      ⟨trivial, trivial⟩⟩⟩⟩
  exact triggered_of_opensAlone plainSettings blockRules_bundlesForever (by decide) hevents
    (by decide)

end DjangoMojo.Incidents
