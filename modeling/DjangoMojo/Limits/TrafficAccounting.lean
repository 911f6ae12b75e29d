import Mathlib.Logic.Function.Basic
import Mathlib.Order.Basic
import DjangoMojo.Foundation.Trace

/-! # Traffic accounting of the API throttle

Every request of an identity is counted under its window. The first request of a window credits
the count of the window before it to the top talkers of that window's bucket. Each Redis command
is a step of its own; the totals of the buckets and the credits of addresses are left out.
-/

namespace DjangoMojo.Limits

open Foundation

namespace Traffic

inductive Kind
  | user | apikey
deriving DecidableEq

structure Identity where
  kind : Kind
  pk : Nat
deriving DecidableEq

structure Setup where
  limit : Identity → Int
  window : Identity → Nat
  reportFloor : Int
  window_pos : ∀ identity, 0 < window identity

def bucketSeconds : Nat := 300

/-- `rl:api:{kind}:{pk}:{window_start}`, by the number of the window. -/
structure Series where
  identity : Identity
  number : Nat
deriving DecidableEq

def Series.next (series : Series) : Series := { series with number := series.number + 1 }

inductive Phase
  | counting
  | expiring (count : Nat)
  | reading
  | crediting (count : Nat)
  | finished
deriving DecidableEq

/-- The call has opened its window and is not through with it. -/
def Phase.opens : Phase → Bool
  | .expiring count => count = 1
  | .reading | .crediting _ => true
  | _ => false

structure Call where
  series : Series
  began : Nat
  phase : Phase
deriving DecidableEq

structure Counter where
  count : Nat
  expires : Option Nat
deriving DecidableEq

/-- A `ZINCRBY` on a `traffic:top` set, for the requests of a window. -/
structure Credit where
  bucket : Nat
  series : Series
  amount : Nat
deriving DecidableEq

/-- Redis and the calls, at a time in milliseconds. The requests of each window and the call
that opened it are recorded. -/
structure World where
  clock : Nat
  counters : Series → Option Counter
  credits : List Credit
  calls : Nat → Option Call
  counted : Series → Nat
  opener : Series → Option Nat

inductive Label
  | begin (id : Nat) (identity : Option Identity) (exempt : Bool)
  | proceed (id : Nat)
  | tick (elapsed : Nat)
deriving DecidableEq

namespace World

def start (clock : Nat) : World :=
  ⟨clock, fun _ => none, [], fun _ => none, fun _ => 0, fun _ => none⟩

def now (world : World) : Nat := world.clock / 1000

def get (world : World) (series : Series) : Option Counter :=
  (world.counters series).filter fun counter => counter.expires.all fun ends => world.clock < ends

def setCall (world : World) (id : Nat) (call : Call) : World :=
  { world with calls := Function.update world.calls id (some call) }

/-- `INCR` -/
def incr (world : World) (id : Nat) (series : Series) : World :=
  let before := world.get series
  { world with
    counters := Function.update world.counters series
      (some ⟨before.elim 0 Counter.count + 1, before.bind Counter.expires⟩)
    counted := Function.update world.counted series (world.counted series + 1)
    opener := if before.isNone then Function.update world.opener series (some id)
      else world.opener }

def expire (world : World) (series : Series) (seconds : Nat) : World :=
  { world with
    counters := Function.update world.counters series
      ((world.get series).elim (world.counters series) fun counter =>
        some { counter with expires := some (world.clock + seconds * 1000) }) }

/-- The count of the window before, where it reaches the floor. -/
def previous (setup : Setup) (world : World) (series : Series) : Option Nat :=
  match series.number with
  | 0 => none
  | number + 1 =>
    ((world.get { series with number := number }).map Counter.count).filter fun count =>
      setup.reportFloor ≤ count

def bucket (setup : Setup) (series : Series) : Nat :=
  series.number * setup.window series.identity / bucketSeconds * bucketSeconds

def proceed (setup : Setup) (world : World) (id : Nat) (call : Call) : Option World :=
  match call.phase with
  | .counting =>
    let count := (world.get call.series).elim 0 Counter.count + 1
    some ((world.incr id call.series).setCall id { call with phase := .expiring count })
  | .expiring count =>
    some ((world.expire call.series (setup.window call.series.identity * 2)).setCall id
      { call with phase := if count = 1 then .reading else .finished })
  | .reading =>
    some (world.setCall id { call with
      phase := (world.previous setup call.series).elim .finished .crediting })
  | .crediting count =>
    let series := { call.series with number := call.series.number - 1 }
    let credit : Credit := ⟨bucket setup series, series, count⟩
    some (({ world with credits := world.credits ++ [credit] } : World).setCall id
      { call with phase := .finished })
  | .finished => none

/-- Requests without an identity, without a limit or under an exempt prefix are not counted. -/
def step (setup : Setup) (world : World) : Label → Option World
  | .begin id identity exempt =>
    if (world.calls id).isSome then none
    else
      match identity with
      | none => some world
      | some identity =>
        if setup.limit identity ≤ 0 ∨ exempt then some world
        else some (world.setCall id
          ⟨⟨identity, world.now / setup.window identity⟩, world.clock, .counting⟩)
  | .proceed id => (world.calls id).bind (world.proceed setup id)
  | .tick elapsed => some { world with clock := world.clock + elapsed }

/-! ### Exact accounting -/

def due (setup : Setup) (world : World) (series : Series) : List Nat :=
  if 0 < world.counted series ∧ setup.reportFloor ≤ world.counted series then
    [world.counted series]
  else []

def credited (world : World) (series : Series) : List Nat :=
  (world.credits.filter fun credit => credit.series = series).map Credit.amount

/-- The identity has made a further request before the counter of the window expires, and none of
its calls is under way. -/
def Returned (world : World) (series : Series) : Prop :=
  (∃ id call, world.calls id = some call ∧ call.series.identity = series.identity ∧
    series.number < call.series.number ∧
    ∀ counter ∈ world.counters series, ∀ ends ∈ counter.expires, call.began ≤ ends) ∧
  ∀ id call, world.calls id = some call → call.series.identity = series.identity →
    call.phase = .finished

/-- A window is credited at most once and exactly, to its bucket; it is credited once its identity
has returned. -/
structure Accounted (setup : Setup) (world : World) : Prop where
  exact : ∀ series, world.credited series = [] ∨ world.credited series = world.due setup series
  complete : ∀ series, world.Returned series → world.credited series = world.due setup series
  bucket : ∀ credit ∈ world.credits, credit.bucket = World.bucket setup credit.series

/-- A call counts and reads within its window, and it opens a window only when each window of its
identity that has something to be credited is followed directly by a window with requests. -/
def Prompt (setup : Setup) (world : World) : Label → World → Prop
  | .proceed id, _ => ∀ call, world.calls id = some call →
    (call.phase = .counting ∨ call.phase = .reading →
      world.now / setup.window call.series.identity = call.series.number) ∧
    (call.phase = .counting → world.counted call.series = 0 →
      ∀ series, series.identity = call.series.identity → series.number + 1 < call.series.number →
        world.due setup series ≠ [] → 0 < world.counted series.next)
  | _, _ => True

variable {setup : Setup} {world after : World} {series : Series} {id : Nat} {call : Call}

/-! ### What holds of every state -/

/-- What the call that opened the window after this one has come to. -/
def Flushed (setup : Setup) (world : World) (series : Series) : Phase → Prop
  | .finished => world.credited series = world.due setup series
  | .crediting count => world.credited series = [] ∧ world.due setup series = [count]
  | .expiring count => count = 1 ∧ world.credited series = []
  | .reading => world.credited series = []
  | .counting => False

theorem Flushed.congr {phase : Phase} (hflushed : world.Flushed setup series phase)
    (hcredited : after.credited series = world.credited series)
    (hdue : after.due setup series = world.due setup series) :
    after.Flushed setup series phase := by
  unfold Flushed at hflushed ⊢
  rw [hcredited, hdue]
  exact hflushed

structure Sound (setup : Setup) (world : World) : Prop where
  calls : ∀ id call, world.calls id = some call →
    call.series.number ≤ world.now / setup.window call.series.identity ∧
      (call.phase = .counting ∨ 0 < world.counted call.series)
  first : ∀ id call count, world.calls id = some call → call.phase = .crediting count →
    0 < call.series.number
  counted : ∀ series, 0 < world.counted series →
    series.number ≤ world.now / setup.window series.identity
  counters : ∀ series, world.counted series = 0 ∧ world.counters series = none ∨
    0 < world.counted series ∧ ∃ expires, world.counters series =
      some ⟨world.counted series, expires⟩ ∧
        ∀ ends ∈ expires, (series.number + 2) * setup.window series.identity * 1000 ≤ ends
  opener : ∀ series, world.opener series = none → world.counted series = 0
  opening : ∀ series id, world.opener series = some id → ∃ call, world.calls id = some call ∧
    call.series = series ∧ call.phase ≠ .counting ∧ 0 < world.counted series
  opens : ∀ id call, world.calls id = some call → Phase.opens call.phase = true →
    world.opener call.series = some id
  unopened : ∀ series, world.opener series.next = none → world.credited series = []
  flushed : ∀ series id call, world.opener series.next = some id → world.calls id = some call →
    world.Flushed setup series call.phase
  followed : ∀ first second, first.identity = second.identity → first.number < second.number →
    0 < world.counted second → world.due setup first ≠ [] → 0 < world.counted first.next
  bucket : ∀ credit ∈ world.credits, credit.bucket = World.bucket setup credit.series

theorem sound_start (setup : Setup) (clock : Nat) : (start clock).Sound setup where
  calls _ _ hcall := nomatch hcall
  first _ _ _ hcall := nomatch hcall
  counted _ hcounted := nomatch hcounted
  counters _ := .inl ⟨rfl, rfl⟩
  opener _ _ := rfl
  opening _ _ hopener := nomatch hopener
  opens _ _ hcall := nomatch hcall
  unopened _ _ := rfl
  flushed _ _ _ hopener := nomatch hopener
  followed _ _ _ _ hcounted := nomatch hcounted
  bucket _ hcredit := nomatch hcredit

theorem Sound.credited_cases (hsound : world.Sound setup) (series : Series) :
    world.credited series = [] ∨ world.credited series = world.due setup series := by
  cases hopener : world.opener series.next with
  | none => exact .inl (hsound.unopened series hopener)
  | some id =>
    obtain ⟨call, hcall, _⟩ := hsound.opening series.next id hopener
    have hflushed := hsound.flushed series id call hopener hcall
    cases hphase : call.phase with
    | finished =>
      rw [hphase] at hflushed
      exact .inr hflushed
    | crediting count =>
      rw [hphase] at hflushed
      exact .inl hflushed.1
    | expiring count =>
      rw [hphase] at hflushed
      exact .inl hflushed.2
    | reading =>
      rw [hphase] at hflushed
      exact .inl hflushed
    | counting =>
      rw [hphase] at hflushed
      exact hflushed.elim

theorem Sound.accounted (hsound : world.Sound setup) : world.Accounted setup := by
  refine ⟨hsound.credited_cases, fun series hreturned => ?_, hsound.bucket⟩
  obtain ⟨⟨id, call, hcall, hidentity, hlater, _⟩, hquiet⟩ := hreturned
  by_cases hdue : world.due setup series = []
  · rcases hsound.credited_cases series with hnone | hcredited
    · rw [hnone, hdue]
    · exact hcredited
  · have hcounted : 0 < world.counted call.series := by
      refine (hsound.calls id call hcall).2.resolve_left fun hcounting => ?_
      rw [hquiet id call hcall hidentity] at hcounting
      cases hcounting
    have hnext := hsound.followed series call.series hidentity.symm hlater hcounted hdue
    cases hopener : world.opener series.next with
    | none => exact absurd (hsound.opener _ hopener) (Nat.pos_iff_ne_zero.mp hnext)
    | some other =>
      obtain ⟨opening, hopening, hseries, _⟩ := hsound.opening series.next other hopener
      have hflushed := hsound.flushed series other opening hopener hopening
      rw [hquiet other opening hopening (by rw [hseries]; rfl)] at hflushed
      exact hflushed

/-- A counter is there until the window after its own is over. -/
theorem Sound.get_eq (hsound : world.Sound setup)
    (hnow : world.now / setup.window series.identity ≤ series.number + 1) :
    world.get series = world.counters series := by
  have hclock : world.clock < (series.number + 2) * setup.window series.identity * 1000 := by
    have hlast := (Nat.div_lt_iff_lt_mul (setup.window_pos series.identity)).mp
      (Nat.lt_succ_of_le hnow)
    exact (Nat.div_lt_iff_lt_mul (by omega)).mp hlast
  unfold get
  rcases hsound.counters series with ⟨_, hnone⟩ | ⟨_, expires, hsome, hends⟩
  · rw [hnone]
    rfl
  · rw [hsome]
    cases expires with
    | none => rfl
    | some ends =>
      have halive : world.clock < ends := Nat.lt_of_lt_of_le hclock (hends ends rfl)
      simp [Option.filter, halive]

theorem Sound.previous_eq (hsound : world.Sound setup)
    (hnow : world.now / setup.window series.identity ≤ series.number + 1) :
    world.previous setup series.next = (world.due setup series).head? := by
  unfold previous due
  change (((world.get series).map Counter.count).filter _) = _
  rw [hsound.get_eq hnow]
  rcases hsound.counters series with ⟨hzero, hnone⟩ | ⟨hpositive, expires, hsome, _⟩
  · simp [hzero, hnone]
  · by_cases hfloor : setup.reportFloor ≤ world.counted series <;>
      simp [hsome, hpositive, hfloor, Option.filter]

theorem calls_update {calls : Nat → Option Call} {fresh known : Call} {other : Nat}
    (hknown : Function.update calls id (some fresh) other = some known) :
    other = id ∧ known = fresh ∨ other ≠ id ∧ calls other = some known := by
  by_cases heq : other = id
  · rw [heq, Function.update_self] at hknown
    exact .inl ⟨heq, (Option.some.inj hknown).symm⟩
  · rw [Function.update_of_ne heq] at hknown
    exact .inr ⟨heq, hknown⟩

/-- A call that has counted goes on: what changes is what the opener of a window owes. -/
theorem Sound.moves (hsound : world.Sound setup) (hcall : world.calls id = some call)
    (hcounted : call.phase ≠ .counting) {phase : Phase} (hphase : phase ≠ .counting)
    (hopens : phase.opens = true → call.phase.opens = true)
    (hfirst : ∀ count, phase = .crediting count → 0 < call.series.number)
    {counters : Series → Option Counter} {credits : List Credit}
    (hcounters : ∀ series, counters series = world.counters series ∨
      ∃ count, world.counters series = some count ∧
        counters series = some { count with expires := some (world.clock +
          setup.window series.identity * 2 * 1000) } ∧
        series.number ≤ world.now / setup.window series.identity)
    (hcredited : ∀ series, world.opener series.next ≠ some id →
      ({ world with credits := credits } : World).credited series = world.credited series)
    (hflushed : ∀ series, world.opener series.next = some id →
      ({ world with credits := credits } : World).Flushed setup series phase)
    (hbucket : ∀ credit ∈ credits, credit.bucket = World.bucket setup credit.series) :
    (({ world with counters := counters, credits := credits } : World).setCall id
      { call with phase := phase }).Sound setup := by
  constructor
  case calls =>
    intro other known hknown
    rcases calls_update hknown with ⟨_, rfl⟩ | ⟨_, hold⟩
    · have hbefore := hsound.calls id call hcall
      exact ⟨hbefore.1, .inr (hbefore.2.resolve_left hcounted)⟩
    · exact hsound.calls other known hold
  case first =>
    intro other known count hknown hcrediting
    rcases calls_update hknown with ⟨_, rfl⟩ | ⟨_, hold⟩
    · exact hfirst count hcrediting
    · exact hsound.first other known count hold hcrediting
  case counted => exact hsound.counted
  case counters =>
    intro series
    rcases hcounters series with hsame | ⟨count, hcount, hexpires, hnumber⟩
    · change _ ∧ counters series = none ∨ _ ∧ ∃ expires, counters series = _ ∧ _
      rw [hsame]
      exact hsound.counters series
    · rcases hsound.counters series with ⟨_, hnone⟩ | ⟨hpositive, expires, hsome, _⟩
      · rw [hnone] at hcount
        cases hcount
      · rw [hsome] at hcount
        cases hcount
        refine .inr ⟨hpositive, _, hexpires, fun ends hends => ?_⟩
        cases hends
        have hstart : series.number * setup.window series.identity ≤ world.now :=
          Nat.mul_le_of_le_div _ _ _ hnumber
        have hclock : world.now * 1000 ≤ world.clock := Nat.div_mul_le_self world.clock 1000
        have hsplit : (series.number + 2) * setup.window series.identity =
            series.number * setup.window series.identity + setup.window series.identity * 2 := by
          rw [Nat.add_mul, Nat.mul_comm 2]
        rw [hsplit, Nat.add_mul]
        refine Nat.add_le_add_right ?_ _
        exact Nat.le_trans (Nat.mul_le_mul_right 1000 hstart) hclock
  case opener => exact hsound.opener
  case opening =>
    intro series other hopener
    obtain ⟨known, hknown, hseries, hcounting, hpositive⟩ := hsound.opening series other hopener
    by_cases heq : other = id
    · rw [heq, hcall] at hknown
      cases hknown
      rw [heq]
      exact ⟨_, Function.update_self .., hseries, hphase, hpositive⟩
    · exact ⟨known, (Function.update_of_ne heq ..).trans hknown, hseries, hcounting, hpositive⟩
  case opens =>
    intro other known hknown hopening
    rcases calls_update hknown with ⟨rfl, rfl⟩ | ⟨_, hold⟩
    · exact hsound.opens other call hcall (hopens hopening)
    · exact hsound.opens other known hold hopening
  case unopened =>
    intro series hopener
    refine (hcredited series ?_).trans (hsound.unopened series hopener)
    change world.opener series.next = none at hopener
    rw [hopener]
    exact nofun
  case flushed =>
    intro series other known hopener hknown
    rcases calls_update hknown with ⟨rfl, rfl⟩ | ⟨hne, hold⟩
    · exact hflushed series hopener
    · have hsame := hcredited series fun hid => hne (Option.some.inj (hopener.symm.trans hid))
      exact (hsound.flushed series other known hopener hold).congr hsame rfl
  case followed => exact hsound.followed
  case bucket => exact hbucket

theorem Sound.tick (hsound : world.Sound setup) (elapsed : Nat) :
    ({ world with clock := world.clock + elapsed } : World).Sound setup := by
  have hlater (seconds : Nat) :
      world.now / seconds ≤ ({ world with clock := world.clock + elapsed } : World).now / seconds :=
    Nat.div_le_div_right (Nat.div_le_div_right (Nat.le_add_right ..))
  exact
    { calls := fun id call hcall =>
        ⟨Nat.le_trans (hsound.calls id call hcall).1 (hlater _), (hsound.calls id call hcall).2⟩
      first := hsound.first
      counted := fun series hcounted => Nat.le_trans (hsound.counted series hcounted) (hlater _)
      counters := hsound.counters
      opener := hsound.opener
      opening := hsound.opening
      opens := hsound.opens
      unopened := hsound.unopened
      flushed := fun series id call hopener hcall =>
        (hsound.flushed series id call hopener hcall).congr rfl rfl
      followed := hsound.followed
      bucket := hsound.bucket }

theorem Sound.begin (hsound : world.Sound setup) (hfree : world.calls id = none)
    (identity : Identity) (began : Nat) :
    (world.setCall id
      ⟨⟨identity, world.now / setup.window identity⟩, began, .counting⟩).Sound setup := by
  constructor
  case calls =>
    intro other known hknown
    rcases calls_update hknown with ⟨_, rfl⟩ | ⟨_, hold⟩
    · exact ⟨Nat.le_refl _, .inl rfl⟩
    · exact hsound.calls other known hold
  case first =>
    intro other known count hknown hcrediting
    rcases calls_update hknown with ⟨_, rfl⟩ | ⟨_, hold⟩
    · cases hcrediting
    · exact hsound.first other known count hold hcrediting
  case counted => exact hsound.counted
  case counters => exact hsound.counters
  case opener => exact hsound.opener
  case opening =>
    intro series other hopener
    obtain ⟨known, hknown, hrest⟩ := hsound.opening series other hopener
    have hne : other ≠ id := fun heq => by rw [heq, hfree] at hknown; cases hknown
    exact ⟨known, (Function.update_of_ne hne ..).trans hknown, hrest⟩
  case opens =>
    intro other known hknown hopening
    rcases calls_update hknown with ⟨_, rfl⟩ | ⟨_, hold⟩
    · cases hopening
    · exact hsound.opens other known hold hopening
  case unopened => exact hsound.unopened
  case flushed =>
    intro series other known hopener hknown
    rcases calls_update hknown with ⟨rfl, _⟩ | ⟨_, hold⟩
    · obtain ⟨opening, hopening, _⟩ := hsound.opening series.next other hopener
      rw [hfree] at hopening
      cases hopening
    · exact (hsound.flushed series other known hopener hold).congr rfl rfl
  case followed => exact hsound.followed
  case bucket => exact hsound.bucket

/-- The call that opened a window reads the count of the window before. -/
theorem Sound.reads (hsound : world.Sound setup) (hcall : world.calls id = some call)
    (hphase : call.phase = .reading)
    (hnow : world.now / setup.window call.series.identity = call.series.number) :
    (world.setCall id { call with
      phase := (world.previous setup call.series).elim .finished .crediting }).Sound setup := by
  refine hsound.moves hcall (by rw [hphase]; exact nofun) ?_ ?_ ?_ (fun _ => .inl rfl)
    (fun _ _ => rfl) ?_ hsound.bucket
  · cases world.previous setup call.series <;> exact nofun
  · rw [hphase]
    exact fun _ => rfl
  · intro count hcrediting
    unfold previous at hcrediting
    cases hnumber : call.series.number with
    | zero =>
      simp only [hnumber] at hcrediting
      cases hcrediting
    | succ number => exact Nat.succ_pos number
  · intro series hopener
    obtain ⟨opening, hopening, hseries, _⟩ := hsound.opening series.next id hopener
    rw [hcall] at hopening
    cases hopening
    rw [hseries] at hnow
    have hprevious := @Sound.previous_eq setup world series hsound (Nat.le_of_eq hnow)
    have hflushed := hsound.flushed series id call hopener hcall
    rw [hphase] at hflushed
    have hnone : world.credited series = [] := hflushed
    rw [hseries, hprevious]
    cases hdue : world.due setup series with
    | nil => exact hnone.trans hdue.symm
    | cons count rest =>
      have hone : rest = [] := by
        unfold due at hdue
        split at hdue
        next => exact (List.cons.inj hdue).2.symm
        next => cases hdue
      exact ⟨hnone, hdue.trans (by rw [hone])⟩

theorem credited_append (world : World) (series : Series) (credit : Credit) :
    ({ world with credits := world.credits ++ [credit] } : World).credited series =
      world.credited series ++ (if credit.series = series then [credit.amount] else []) := by
  unfold credited
  rw [List.filter_append, List.map_append]
  by_cases heq : credit.series = series <;> simp [heq]

theorem Sound.credits (hsound : world.Sound setup) (hcall : world.calls id = some call)
    {count : Nat} (hphase : call.phase = .crediting count) :
    world.proceed setup id call = some after → after.Sound setup := by
  intro hproceed
  simp only [proceed, hphase, Option.some.injEq] at hproceed
  subst hproceed
  have hpositive := hsound.first id call count hcall hphase
  have hopener := hsound.opens id call hcall (by rw [hphase]; rfl)
  let before : Series := { call.series with number := call.series.number - 1 }
  have hbefore : before.next = call.series := by
    unfold before Series.next
    rw [Nat.sub_add_cancel hpositive]
  refine hsound.moves hcall (by rw [hphase]; exact nofun)
    (show Phase.finished ≠ .counting from nofun) nofun nofun (fun _ => .inl rfl) ?_ ?_ ?_
  · intro series hother
    have hne : before ≠ series := fun heq => hother (by rw [← heq, hbefore, hopener])
    refine (credited_append world series ⟨World.bucket setup before, before, count⟩).trans ?_
    rw [if_neg hne, List.append_nil]
  · intro series hopens
    obtain ⟨opening, hopening, hseries, _⟩ := hsound.opening series.next id hopens
    rw [hcall] at hopening
    cases hopening
    have hflushed := hsound.flushed series id call hopens hcall
    rw [hphase] at hflushed
    have heq : before = series := by
      unfold before
      rw [hseries]
      rfl
    refine (credited_append world series ⟨World.bucket setup before, before, count⟩).trans ?_
    rw [if_pos heq, hflushed.1]
    exact hflushed.2.symm
  · intro credit hcredit
    rcases List.mem_append.mp hcredit with hold | hnew
    · exact hsound.bucket credit hold
    · rw [List.mem_singleton.mp hnew]

theorem Sound.expires (hsound : world.Sound setup) (hcall : world.calls id = some call)
    {count : Nat} (hphase : call.phase = .expiring count) :
    ((world.expire call.series (setup.window call.series.identity * 2)).setCall id
      { call with phase := if count = 1 then .reading else .finished }).Sound setup := by
  refine hsound.moves hcall (by rw [hphase]; exact nofun) ?_ ?_ ?_ (fun series => ?_)
    (fun _ _ => rfl) (fun series hopener => ?_) hsound.bucket
  · split <;> exact nofun
  · intro hopens
    rw [hphase]
    split at hopens
    next hone => exact decide_eq_true hone
    next => cases hopens
  · intro other hcrediting
    split at hcrediting <;> cases hcrediting
  · by_cases heq : series = call.series
    · rw [heq, Function.update_self]
      cases hcounter : world.get call.series with
      | none => exact .inl rfl
      | some counter =>
        exact .inr ⟨counter, (Option.filter_eq_some_iff.mp hcounter).1, rfl,
          (hsound.calls id call hcall).1⟩
    · exact .inl (Function.update_of_ne heq ..)
  · have hflushed := hsound.flushed series id call hopener hcall
    rw [hphase] at hflushed
    rw [if_pos hflushed.1]
    exact hflushed.2

/-- A request counts, and opens its window when it is the first one. -/
theorem Sound.counts (hsound : world.Sound setup) (hcall : world.calls id = some call)
    (hphase : call.phase = .counting)
    (hnow : world.now / setup.window call.series.identity = call.series.number)
    (hfollowed : world.counted call.series = 0 → ∀ series,
      series.identity = call.series.identity → series.number + 1 < call.series.number →
        world.due setup series ≠ [] → 0 < world.counted series.next) :
    ((world.incr id call.series).setCall id
      { call with phase := .expiring ((world.get call.series).elim 0 Counter.count + 1) }).Sound
        setup := by
  have hget : world.get call.series = world.counters call.series :=
    hsound.get_eq (Nat.le_succ_of_le (Nat.le_of_eq hnow))
  have hcount : (world.get call.series).elim 0 Counter.count = world.counted call.series := by
    rw [hget]
    rcases hsound.counters call.series with ⟨hzero, hnone⟩ | ⟨_, expires, hsome, _⟩
    · rw [hnone, hzero]
      rfl
    · rw [hsome]
      rfl
  have hunopened : world.counted call.series = 0 → world.opener call.series = none := by
    intro hzero
    cases hopener : world.opener call.series with
    | none => rfl
    | some other =>
      obtain ⟨_, _, _, _, hpositive⟩ := hsound.opening call.series other hopener
      rw [hzero] at hpositive
      cases hpositive
  have hahead : ∀ series, series.identity = call.series.identity →
      call.series.number < series.number → ¬ 0 < world.counted series := by
    intro series hidentity hlater hpositive
    have hlast := hsound.counted series hpositive
    rw [hidentity, hnow] at hlast
    omega
  have hcounted (series : Series) : (Function.update world.counted call.series
      (world.counted call.series + 1)) series =
        if series = call.series then world.counted call.series + 1 else world.counted series :=
    Function.update_apply ..
  have hopener (series : Series) : (world.incr id call.series).opener series =
      if series = call.series ∧ world.counted call.series = 0 then some id
      else world.opener series := by
    unfold incr
    rcases hsound.counters call.series with ⟨hzero, hnone⟩ | ⟨hpositive, expires, hsome, _⟩
    · simp [hget, hnone, hzero, Function.update_apply]
    · simp [hget, hsome, Nat.pos_iff_ne_zero.mp hpositive]
  have hseen : ∀ other known, (Function.update world.calls id (some { call with
      phase := .expiring ((world.get call.series).elim 0 Counter.count + 1) })) other =
        some known →
      other = id ∧ known = { call with phase := .expiring (world.counted call.series + 1) } ∨
        other ≠ id ∧ world.calls other = some known :=
    fun _ _ hknown => hcount ▸ calls_update hknown
  have hgrows (series : Series) (hpositive : 0 < world.counted series) :
      0 < (Function.update world.counted call.series (world.counted call.series + 1)) series := by
    rw [hcounted]
    split
    next => exact Nat.succ_pos _
    next => exact hpositive
  have hself : 0 < (Function.update world.counted call.series
      (world.counted call.series + 1)) call.series := by
    rw [Function.update_self]
    exact Nat.succ_pos _
  have hdue (series : Series) (hne : series ≠ call.series) :
      (world.incr id call.series).due setup series = world.due setup series := by
    unfold due incr
    simp only [hcounted, if_neg hne]
  constructor
  case calls =>
    intro other known hknown
    rcases hseen other known hknown with ⟨_, rfl⟩ | ⟨_, hold⟩
    · exact ⟨Nat.le_of_eq hnow.symm, .inr hself⟩
    · exact (hsound.calls other known hold).imp_right (Or.imp_right (hgrows _))
  case first =>
    intro other known count hknown hcrediting
    rcases hseen other known hknown with ⟨_, rfl⟩ | ⟨_, hold⟩
    · cases hcrediting
    · exact hsound.first other known count hold hcrediting
  case counted =>
    intro series hpositive
    by_cases heq : series = call.series
    · rw [heq]
      exact Nat.le_of_eq hnow.symm
    · refine hsound.counted series ?_
      change 0 < Function.update world.counted call.series _ series at hpositive
      rwa [Function.update_of_ne heq] at hpositive
  case counters =>
    intro series
    by_cases heq : series = call.series
    · subst heq
      refine .inr ⟨hself, (world.get call.series).bind Counter.expires, ?_, fun ends hends => ?_⟩
      · simp [setCall, incr, hcount]
      · rw [hget] at hends
        rcases hsound.counters call.series with ⟨_, hnone⟩ | ⟨_, expires, hsome, hlast⟩
        · rw [hnone] at hends
          cases hends
        · rw [hsome] at hends
          exact hlast ends hends
    · simpa [setCall, incr, Function.update_of_ne heq] using hsound.counters series
  case opener =>
    intro series hnone
    change (world.incr id call.series).opener series = none at hnone
    rw [hopener] at hnone
    split at hnone
    next => cases hnone
    next hold =>
      have hzero := hsound.opener series hnone
      have hne : series ≠ call.series := fun heq => hold ⟨heq, heq ▸ hzero⟩
      exact (Function.update_of_ne hne ..).trans hzero
  case opening =>
    intro series other hsome
    change (world.incr id call.series).opener series = some other at hsome
    rw [hopener] at hsome
    split at hsome
    next hnew =>
      cases hsome
      exact ⟨_, Function.update_self .., hnew.1.symm, nofun, hnew.1 ▸ hself⟩
    next =>
      obtain ⟨known, hknown, hseries, hcounting, hpositive⟩ := hsound.opening series other hsome
      have hne : other ≠ id := fun heq => by
        rw [heq, hcall] at hknown
        cases hknown
        exact hcounting hphase
      exact ⟨known, (Function.update_of_ne hne ..).trans hknown, hseries, hcounting,
        hgrows series hpositive⟩
  case opens =>
    intro other known hknown hopens
    change (world.incr id call.series).opener known.series = some other
    rw [hopener]
    rcases hseen other known hknown with ⟨rfl, rfl⟩ | ⟨_, hold⟩
    · have hone : world.counted call.series + 1 = 1 := of_decide_eq_true hopens
      exact if_pos ⟨rfl, Nat.succ.inj hone⟩
    · have hknown := hsound.opens other known hold hopens
      rw [if_neg]
      · exact hknown
      · rintro ⟨heq, hzero⟩
        rw [heq, hunopened hzero] at hknown
        cases hknown
  case unopened =>
    intro series hnone
    change (world.incr id call.series).opener series.next = none at hnone
    rw [hopener] at hnone
    split at hnone
    next => cases hnone
    next => exact hsound.unopened series hnone
  case flushed =>
    intro series other known hsome hknown
    change (world.incr id call.series).opener series.next = some other at hsome
    rw [hopener] at hsome
    split at hsome
    next hnew =>
      cases hsome
      have hnone := hsound.unopened series (hnew.1 ▸ hunopened hnew.2)
      rcases hseen id known hknown with ⟨_, rfl⟩ | ⟨hne, _⟩
      · exact ⟨by rw [hnew.2], hnone⟩
      · exact absurd rfl hne
    next =>
      obtain ⟨opening, hopening, _, hcounting, hpositive⟩ :=
        hsound.opening series.next other hsome
      have hne : series ≠ call.series := fun heq =>
        hahead series.next (by rw [heq]; rfl) (by rw [heq]; exact Nat.lt_succ_self _) hpositive
      rcases hseen other known hknown with ⟨rfl, _⟩ | ⟨_, hold⟩
      · rw [hcall] at hopening
        cases hopening
        exact absurd hphase hcounting
      · exact (hsound.flushed series other known hsome hold).congr rfl (hdue series hne)
  case followed =>
    intro first second hidentity hless hpositive hdues
    by_cases hsecond : second = call.series
    · subst hsecond
      have hne : first ≠ call.series := fun heq => by
        rw [heq] at hless
        exact Nat.lt_irrefl _ hless
      have hbefore : world.due setup first ≠ [] := hdue first hne ▸ hdues
      rcases Nat.eq_zero_or_pos (world.counted call.series) with hzero | hold
      · rcases Nat.lt_or_eq_of_le hless with hgap | hnext
        · exact hgrows _ (hfollowed hzero first hidentity hgap hbefore)
        · have heq : first.next = call.series := by
            unfold Series.next
            rw [← Nat.succ_eq_add_one, hnext, hidentity]
          rw [heq]
          exact hself
      · exact hgrows _ (hsound.followed first call.series hidentity hless hold hbefore)
    · change 0 < Function.update world.counted call.series _ second at hpositive
      rw [Function.update_of_ne hsecond] at hpositive
      have hne : first ≠ call.series := fun heq => by
        subst heq
        exact hahead second hidentity.symm hless hpositive
      exact hgrows _ (hsound.followed first second hidentity hless hpositive (hdue first hne ▸ hdues))
  case bucket => exact hsound.bucket

theorem Sound.step (hsound : world.Sound setup) {label : Label}
    (hprompt : world.Prompt setup label after) (hstep : step setup world label = some after) :
    after.Sound setup := by
  cases label with
  | begin id identity exempt =>
    simp only [World.step] at hstep
    split at hstep
    next => cases hstep
    next hfree =>
      cases identity with
      | none =>
        cases hstep
        exact hsound
      | some identity =>
        dsimp only at hstep
        split at hstep
        next =>
          cases hstep
          exact hsound
        next =>
          cases hstep
          exact hsound.begin (Option.not_isSome_iff_eq_none.mp hfree) identity _
  | proceed id =>
    obtain ⟨call, hcall, hproceed⟩ := Option.bind_eq_some_iff.mp hstep
    obtain ⟨hwithin, hfollowed⟩ := hprompt call hcall
    cases hphase : call.phase with
    | counting =>
      simp only [proceed, hphase, Option.some.injEq] at hproceed
      subst hproceed
      exact hsound.counts hcall hphase (hwithin (.inl hphase)) (hfollowed hphase)
    | expiring count =>
      simp only [proceed, hphase, Option.some.injEq] at hproceed
      subst hproceed
      exact hsound.expires hcall hphase
    | reading =>
      simp only [proceed, hphase, Option.some.injEq] at hproceed
      subst hproceed
      exact hsound.reads hcall hphase (hwithin (.inr hphase))
    | crediting count => exact hsound.credits hcall hphase hproceed
    | finished =>
      simp only [proceed, hphase] at hproceed
      cases hproceed
  | tick elapsed =>
    cases hstep
    exact hsound.tick elapsed

/-- In a run of prompt steps the windows are accounted for in every state. -/
theorem accounted_of_prompt (setup : Setup) (clock : Nat) {labels : List Label}
    (hlabels : EachStep (step setup) (Prompt setup) (start clock) labels) :
    Always (step setup) (Accounted setup) (start clock) labels := by
  have hstep : ∀ world label next, world.Sound setup → world.Prompt setup label next →
      step setup world label = some next → next.Sound setup :=
    fun _ _ _ hsound hprompt hnext => hsound.step hprompt hnext
  exact (always_of_eachStep hstep (sound_start setup clock) hlabels).imp
    fun _ => Sound.accounted

/-! ### Runs of one user -/

theorem calls_none_of_run {labels : List Label} {last : World}
    (hlabels : ∀ identity exempt, .begin id identity exempt ∉ labels)
    (hnone : world.calls id = none) (hrun : run (step setup) world labels = some last) :
    last.calls id = none := by
  induction labels generalizing world with
  | nil =>
    cases hrun
    exact hnone
  | cons label rest ih =>
    obtain ⟨next, hnext, hrest⟩ := Option.bind_eq_some_iff.mp hrun
    refine ih (fun identity exempt hmem => hlabels identity exempt (.tail _ hmem)) ?_ hrest
    cases label with
    | begin other identity exempt =>
      have hne : id ≠ other := fun heq => hlabels identity exempt (heq ▸ List.mem_cons_self)
      simp only [step] at hnext
      split at hnext
      next => cases hnext
      next =>
        split at hnext
        next =>
          cases hnext
          exact hnone
        next =>
          split at hnext
          next =>
            cases hnext
            exact hnone
          next =>
            cases hnext
            exact (Function.update_of_ne hne ..).trans hnone
    | proceed other =>
      obtain ⟨call, hcall, hproceed⟩ := Option.bind_eq_some_iff.mp hnext
      have hne : id ≠ other := fun heq => by
        rw [← heq, hnone] at hcall
        cases hcall
      unfold proceed at hproceed
      split at hproceed
      all_goals cases hproceed
      all_goals exact (Function.update_of_ne hne ..).trans hnone
    | tick elapsed =>
      cases hnext
      exact hnone

def minuteSetup : Setup where
  limit := fun _ => 240
  window := fun _ => 60
  reportFloor := 1
  window_pos := fun _ => by decide

def visitor : Identity := ⟨.user, 7⟩

theorem prompt_early (hcall : world.calls id = some call)
    (hnow : world.now / setup.window call.series.identity = call.series.number)
    (hearly : call.series.number ≤ 1) : world.Prompt setup (.proceed id) after := by
  intro other hother
  rw [hcall] at hother
  cases hother
  exact ⟨fun _ => hnow, fun _ _ series _ hgap => by omega⟩

/-- A request in the first minute, and one that opens the second. -/
def twoMinutes : List Label :=
  [.begin 0 (some visitor) false, .proceed 0, .tick 60000, .begin 1 (some visitor) false,
    .proceed 1, .proceed 1, .proceed 1, .proceed 1]

theorem twoMinutes_accounted :
    Always (step minuteSetup) (Accounted minuteSetup) (start 0) twoMinutes := by
  refine accounted_of_prompt minuteSetup 0 fun _ hnext => ?_
  cases hnext
  refine ⟨trivial, fun _ hnext => ⟨prompt_early rfl rfl (by decide), ?_⟩⟩
  cases hnext
  refine fun _ hnext => ⟨trivial, ?_⟩
  cases hnext
  refine fun _ hnext => ⟨trivial, ?_⟩
  cases hnext
  refine fun _ hnext => ⟨prompt_early rfl rfl (by decide), ?_⟩
  cases hnext
  refine fun _ hnext => ⟨prompt_early rfl rfl (by decide), ?_⟩
  cases hnext
  refine fun _ hnext => ⟨prompt_early rfl rfl (by decide), ?_⟩
  cases hnext
  exact fun _ _ => ⟨prompt_early rfl rfl (by decide), trivial⟩

/-- A request in the first minute, and one in the third, before the counter expires. -/
def skippedMinute : List Label :=
  [.begin 0 (some visitor) false, .proceed 0, .proceed 0, .proceed 0, .tick 71000,
    .begin 1 (some visitor) false, .proceed 1, .proceed 1, .proceed 1]

theorem skippedMinute_not_accounted :
    ¬ Always (step minuteSetup) (Accounted minuteSetup) (start 59000) skippedMinute := by
  intro halways
  obtain ⟨last, hlast⟩ : ∃ last, run (step minuteSetup) (start 59000) skippedMinute = some last :=
    Option.isSome_iff_exists.mp (by decide +kernel)
  have hends : (run (step minuteSetup) (start 59000) skippedMinute).all (fun last =>
      last.calls 0 = some ⟨⟨visitor, 0⟩, 59000, .finished⟩ ∧
      last.calls 1 = some ⟨⟨visitor, 2⟩, 130000, .finished⟩ ∧
      last.counters ⟨visitor, 0⟩ = some ⟨1, some 179000⟩ ∧
      last.credited ⟨visitor, 0⟩ = [] ∧ last.due minuteSetup ⟨visitor, 0⟩ = [1]) = true := by
    decide +kernel
  rw [hlast, Option.all_some, decide_eq_true_eq] at hends
  obtain ⟨hearlier, hlater, hcounter, hcredited, hdue⟩ := hends
  have haccounted := always_iff_forall_prefix.mp halways 9 last hlast
  have hcomplete := haccounted.complete ⟨visitor, 0⟩
    ⟨⟨1, _, hlater, rfl, by decide, fun counter hknown ends hends => ?_⟩, fun id call hcall _ => ?_⟩
  · rw [hcredited, hdue] at hcomplete
    cases hcomplete
  · rw [hcounter] at hknown
    cases hknown
    cases hends
    decide
  · by_cases hone : id = 1
    · rw [hone, hlater] at hcall
      cases hcall
      rfl
    · by_cases hzero : id = 0
      · rw [hzero, hearlier] at hcall
        cases hcall
        rfl
      · have hnone : last.calls id = none :=
          calls_none_of_run (by simp [skippedMinute, hone, hzero]) rfl hlast
        rw [hnone] at hcall
        cases hcall

end World

end Traffic

end DjangoMojo.Limits
