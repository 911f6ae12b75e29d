import DjangoMojo.Assistant.ApprovalUse
import DjangoMojo.Assistant.ApprovalCaps

/-! # The approval boundary

A handler runs once for a row at most, for its bound user, in an approval made in time, on the
stored arguments, and never for a row that lapsed; conversations keep within their caps. All of
this every run has. That a terminal row stays as it is needs handlers that are done before a
sweep gives up on them.
-/

namespace DjangoMojo.Assistant

open Foundation

structure World.Bounded (world : World) : Prop where
  once : (world.handled.map HandlerCall.pk).Nodup
  justified : ∀ call ∈ world.handled, Proposals.Justifies world.proposed call
  capped : world.IsQuiet → ∀ conversation,
    (world.live conversation).length ≤ maxLivePerConversation ∧
      ∀ first second row other, first ∈ world.live conversation →
        second ∈ world.live conversation → world.rows.get first = some row →
        world.rows.get second = some other → row.toolName = other.toolName →
        row.argsFingerprint = other.argsFingerprint → first = second

structure World.Sound (world : World) : Prop where
  known : world.Known
  single : world.SingleUse
  capped : world.Capped
  executes : world.Executes

theorem World.Sound.bounded {world : World} (hsound : world.Sound) : world.Bounded where
  once := hsound.single.once
  justified := hsound.known.handled
  capped := hsound.capped.at_rest

theorem sound_start (clock : Time) (nextPk : Nat) : (World.start clock nextPk).Sound where
  known := known_start clock nextPk
  single := single_start clock nextPk
  capped := capped_start clock nextPk
  executes := by
    rintro id claim ⟨call, hcall, _⟩
    cases hcall

theorem step_sound {site : Site} (world : World) (label : Label) (next : World) (hsound : world.Sound)
    (htimely : Timely world label next) (hnext : step site world label = some next) :
    next.Sound where
  known := step_known hsound.known hnext
  single := step_single hsound.known hsound.single hnext
  capped := step_capped hsound.known hsound.capped hnext
  executes := executes_of_step hsound.single hsound.executes htimely hnext

/-- In a run whose sweeps give up on no claim in progress, every state keeps the boundary and
no terminal row changes again. -/
theorem boundary_of_timely (site : Site) (clock : Time) (nextPk : Nat) (labels : List Label)
    (htimely : EachStep (step site) Timely (World.start clock nextPk) labels) :
    Always (step site) World.Bounded (World.start clock nextPk) labels ∧
      Throughout (step site) Retires (World.start clock nextPk) labels := by
  constructor
  · have hsound := always_of_eachStep (@step_sound site) (sound_start clock nextPk)
      htimely
    exact hsound.imp fun world hworld => hworld.bounded
  · have hretired : Throughout (step site) Retired _ labels := throughout_of_eachStep step_sound
      (fun world hsound => hsound.single.retired hsound.known)
      (fun first world label next hsound hretired _ hnext =>
        hretired.extend hsound.executes hnext)
      (sound_start clock nextPk) htimely
    exact hretired.imp fun first later hlater => hlater.retires

/-- The boundary itself rests on no timing: sweeps may give up on handlers that still run. -/
theorem bounded_always (site : Site) (clock : Time) (nextPk : Nat) (labels : List Label) :
    Always (step site) World.Bounded (World.start clock nextPk) labels := by
  have hinvariant : Always (step site)
      (fun world => world.Known ∧ world.SingleUse ∧ world.Capped)
      (World.start clock nextPk) labels := by
    refine always_of_inductive ?_
      ⟨known_start clock nextPk, single_start clock nextPk, capped_start clock nextPk⟩ labels
    intro world label next hworld hnext
    obtain ⟨hknown, hsingle, hcapped⟩ := hworld
    exact ⟨step_known hknown hnext, step_single hknown hsingle hnext,
      step_capped hknown hcapped hnext⟩
  refine hinvariant.imp fun world hworld => ?_
  exact ⟨hworld.2.1.once, hworld.1.handled, hworld.2.2.at_rest⟩

/-! ### A handler that outlasts the timeout -/

namespace Sample

def site : Site where
  normalizeArgs _ raw := match raw with
    | .obj fields => .ok fields
    | _ => .error "Tool arguments must be a JSON object."
  fingerprint tool _ := tool
  redactArgs := id
  safeSummary _ _ _ := "block_ip will run with the arguments below."
  refusalMessage action := action
  boundedText _ := ""
  boundedResult := id

def blockIp : ToolEntry where
  inputSchema := .null
  mutates := true
  permission := none
  hasPreview := false
  freshAuthSeconds := none
  requiresSuperuser := false
  requiresManagedInfrastructure := false

def gates : Gates where
  isExternal := false
  liveUser := some ⟨true, true⟩
  groupActive := true
  bearer := true
  fresh _ := true
  preview := .ok none

/-- Call 1 proposes, call 2 approves, and the handler of call 2 is running. -/
def approving : List Label := [
  .propose 1 ⟨7, 3, none, "block_ip", blockIp, .obj [("ip", .str "192.0.2.1")], false, .ok none,
    none⟩,
  .proceed 1 .none, .proceed 1 (.uuid 11), .proceed 1 .none, .proceed 1 .none, .proceed 1 .none,
  .resolve 2 7 (some 11) (some .approve) none,
  .proceed 2 .none, .proceed 2 (.entry (some blockIp)), .proceed 2 (.gates gates),
  .proceed 2 .none, .proceed 2 .none, .proceed 2 .none]

def finishing : List Label :=
  [.proceed 2 (.result (.returned .null)), .proceed 2 .none, .proceed 2 .none]

def sweeping : List Label :=
  [.sweep 3 30, .proceed 3 .none, .proceed 3 .none, .proceed 3 .none]

def start : World := World.start 0 1

def rowState (world : World) : Option ActionState := (world.rows.get 1).map PendingAction.state

/-- Fifteen minutes and a second after the approval a sweep runs. -/
def late : List Label := approving ++ [.tick 901000000] ++ sweeping

def calm (world : World) (label : Label) : Bool :=
  match label with
  | .proceed id _ =>
    (world.calls id).all fun call => match call with
      | .aging _ => false
      | _ => true
  | _ => true

theorem timely_of_calm (world : World) (label : Label) (next : World)
    (hcalm : calm world label = true) : Timely world label next := by
  rintro id sweep rfl hcall
  simp [calm, hcall] at hcalm

end Sample

theorem boundary_of_timely_approving :
    Always (step Sample.site) World.Bounded Sample.start (Sample.approving ++ Sample.finishing) ∧
      Throughout (step Sample.site) Retires Sample.start (Sample.approving ++ Sample.finishing) :=
  boundary_of_timely Sample.site 0 1 (Sample.approving ++ Sample.finishing)
    (EachStep.imp Sample.timely_of_calm (by decide))

/-- The sweep fails the row, and the handler's outcome then replaces the failure. -/
theorem not_always_retired : ¬ ∀ (site : Site) (clock : Time) (nextPk : Nat)
    (labels : List Label), Throughout (step site) Retires (World.start clock nextPk) labels := by
  intro hall
  have hlate : (run (step Sample.site) Sample.start Sample.late).map Sample.rowState =
      some (some .failed) := by decide
  obtain ⟨middle, hmiddle, hfailed⟩ := Option.map_eq_some_iff.mp hlate
  obtain ⟨row, hrow, hstate⟩ := Option.map_eq_some_iff.mp hfailed
  have hmore : ((run (step Sample.site) Sample.start Sample.late).bind fun middle =>
      run (step Sample.site) middle Sample.finishing).map Sample.rowState =
        some (some .completed) := by decide
  rw [hmiddle, Option.bind_some] at hmore
  obtain ⟨last, hlast, hcompleted⟩ := Option.map_eq_some_iff.mp hmore
  obtain ⟨after, hafter, hlater⟩ := Option.map_eq_some_iff.mp hcompleted
  have hretires := (hall Sample.site 0 1 (Sample.late ++ Sample.finishing)).of_runs hmiddle hlast
  have heq := hretires.kept 1 row after hrow (by rw [hstate]; rfl) hafter
  rw [heq, hstate] at hlater
  cases hlater

end DjangoMojo.Assistant
