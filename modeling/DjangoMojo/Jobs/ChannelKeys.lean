import DjangoMojo.Foundation.Markers
import DjangoMojo.Jobs.Publish

/-! # Channel names in Redis keys

A channel is written into the keys of its structures, and three readers recover it from a
key: the engine takes the last colon part of a queue key, the scheduler splits the keys that
its scan finds at a marker, and the orphan check splits a queue key once.
-/

namespace DjangoMojo.Jobs

open Foundation

/-- The charset and the length that a channel name is documented to have. -/
def Channel.isCleanName (channel : Channel) : Bool :=
  0 < channel.toList.length && channel.toList.length ≤ 100 && channel.toList.all Channel.isNameChar

namespace JobKeys

def queueTag : String := "\x7bjobs\x7d"

def queue (keyPrefix channel : String) : String :=
  keyPrefix ++ ":" ++ queueTag ++ ":queue:" ++ channel

def sched (keyPrefix channel : String) : String := keyPrefix ++ ":sched:" ++ channel

end JobKeys

/-- `queue_key.split(':')[-1]`. -/
def channelOfQueueKey (key : String) : Channel := .ofList (Markers.lastPart ':' key.toList)

/-- The second part of a key that a marker splits in two, unless it is empty. -/
def secondOfTwo (marker key : String) : Option Channel :=
  match Markers.split marker.toList key.toList with
  | [_, channel] => if channel.isEmpty then none else some (.ofList channel)
  | _ => none

/-- What follows the first marker of a key, unless it is empty. -/
def afterFirst (marker key : String) : Option Channel :=
  match Markers.breakOn marker.toList key.toList with
  | some (_, channel) => if channel.isEmpty then none else some (.ofList channel)
  | none => none

def starMatch : List Char → List Char → Bool
  | [], key => key.isEmpty
  | char :: pattern, key =>
    if char = '*' then key.tails.any (starMatch pattern)
    else
      match key with
      | [] => false
      | other :: rest => char = other && starMatch pattern rest

section Scan

-- which keys SCAN returns for a pattern
variable (glob : String → String → Bool)

/-- The channels that `_seed_registry` registers, one loop after the other. -/
def seedRegistry (keyPrefix : String) (keys : List String) : List Channel :=
  ((keys.filter (glob (keyPrefix ++ ":sched:*"))).filterMap (secondOfTwo ":sched:")) ++
    (keys.filter (glob (keyPrefix ++ ":sched_broadcast:*"))).filterMap
      (secondOfTwo ":sched_broadcast:")

/-- The channels that `find_unconsumed_channels` reads from the queue keys. -/
def unconsumedChannels (keyPrefix : String) (keys : List String) : List Channel :=
  (keys.filter (glob (keyPrefix ++ ":*:queue:*"))).filterMap (afterFirst ":queue:")

/-- The name is clean, each reader recovers it, and no other channel has its keys. -/
structure RoundTrips (keyPrefix : String) (channel : Channel) : Prop where
  clean : channel.isCleanName = true
  engine : channelOfQueueKey (JobKeys.queue keyPrefix channel) = channel
  seeded : ∀ name, name ∈ seedRegistry glob keyPrefix [JobKeys.sched keyPrefix channel] ↔
    name = channel
  found : ∀ name, name ∈ unconsumedChannels glob keyPrefix [JobKeys.queue keyPrefix channel] ↔
    name = channel
  queue_inj : ∀ other, JobKeys.queue keyPrefix channel = JobKeys.queue keyPrefix other →
    channel = other
  sched_inj : ∀ other, JobKeys.sched keyPrefix channel = JobKeys.sched keyPrefix other →
    channel = other

def separates (keyPrefix : String) : Bool :=
  !decide (":sched:".toList <:+: keyPrefix.toList ++ ":sched".toList) &&
    !decide (":queue:".toList <:+: (keyPrefix ++ ":" ++ JobKeys.queueTag).toList ++ ":queue".toList)

/-- The patterns built from the key prefix find the channel's keys, each its own. -/
def isScanned (keyPrefix : String) (channel : Channel) : Bool :=
  glob (keyPrefix ++ ":sched:*") (JobKeys.sched keyPrefix channel) &&
    glob (keyPrefix ++ ":*:queue:*") (JobKeys.queue keyPrefix channel) &&
    !(glob (keyPrefix ++ ":sched_broadcast:*") (JobKeys.sched keyPrefix channel) &&
      (secondOfTwo ":sched_broadcast:" (JobKeys.sched keyPrefix channel)).isSome)

end Scan

namespace Channel

theorem isNameChar_colon : isNameChar ':' = false := by decide

theorem isNameChar_newline : isNameChar '\n' = false := by decide

theorem isCleanName_iff {channel : Channel} (hvalid : channel.isValidName = true) :
    channel.isCleanName = true ↔ channel.toList.getLast? ≠ some '\n' := by
  simp only [isValidName, Bool.and_eq_true, decide_eq_true_eq] at hvalid
  simp only [isCleanName, Bool.and_eq_true, decide_eq_true_eq]
  split at hvalid
  next hnewline =>
    refine iff_of_false ?_ (not_not_intro hnewline)
    rintro ⟨_, hall⟩
    have hlast := List.all_eq_true.mp hall '\n' (List.mem_of_getLast? hnewline)
    rw [isNameChar_newline] at hlast
    cases hlast
  next hnewline => exact iff_of_true hvalid hnewline

theorem colon_not_mem {channel : Channel} (hvalid : channel.isValidName = true) :
    ':' ∉ channel.toList := by
  simp only [isValidName, Bool.and_eq_true, decide_eq_true_eq, List.all_eq_true] at hvalid
  intro hcolon
  have hname : ':' ∈ (if channel.toList.getLast? = some '\n' then channel.toList.dropLast
      else channel.toList) := by
    split
    next hnewline =>
      have hne : channel.toList ≠ [] := List.ne_nil_of_mem hcolon
      rw [← List.dropLast_append_getLast hne] at hcolon
      obtain hfront | hlast := List.mem_append.mp hcolon
      · exact hfront
      · rw [List.getLast?_eq_some_getLast hne, Option.some.injEq] at hnewline
        have hcolon := (List.mem_singleton.mp hlast).trans hnewline
        exact absurd hcolon (by decide)
    next => exact hcolon
  have hchar := hvalid.2 ':' hname
  rw [isNameChar_colon] at hchar
  cases hchar

theorem toList_ne_nil {channel : Channel} (hvalid : channel.isValidName = true) :
    channel.toList ≠ [] := by
  intro hnil
  simp [isValidName, hnil] at hvalid

end Channel

namespace JobKeys

theorem toList_queue (keyPrefix channel : String) :
    (queue keyPrefix channel).toList =
      (keyPrefix ++ ":" ++ queueTag).toList ++ ":queue:".toList ++ channel.toList := by
  simp [queue, String.toList_append]

theorem toList_sched (keyPrefix channel : String) :
    (sched keyPrefix channel).toList = keyPrefix.toList ++ ":sched:".toList ++ channel.toList := by
  simp [sched, String.toList_append]

end JobKeys

theorem secondOfTwo_eq_some {marker key name : String} :
    secondOfTwo marker key = some name ↔
      (∃ before, Markers.split marker.toList key.toList = [before, name.toList]) ∧
        name.toList ≠ [] := by
  rw [secondOfTwo]
  split
  next before channel hsplit =>
    cases channel with
    | nil =>
      simp only [List.isEmpty_nil, if_true, reduceCtorEq, false_iff]
      rintro ⟨⟨other, hother⟩, hne⟩
      simp only [hsplit, List.cons.injEq, and_true] at hother
      exact hne hother.2.symm
    | cons head tail =>
      rw [hsplit, List.isEmpty_cons, if_neg Bool.false_ne_true, Option.some.injEq]
      constructor
      · rintro rfl
        simp
      · rintro ⟨⟨other, hother⟩, _⟩
        simp only [List.cons.injEq, and_true] at hother
        rw [hother.2, String.ofList_toList]
  next hsplit =>
    simp only [reduceCtorEq, false_iff]
    rintro ⟨⟨before, hbefore⟩, _⟩
    exact hsplit before name.toList hbefore

theorem afterFirst_eq_some {marker key name : String} :
    afterFirst marker key = some name ↔
      (∃ before, Markers.breakOn marker.toList key.toList = some (before, name.toList)) ∧
        name.toList ≠ [] := by
  rw [afterFirst]
  split
  next before channel hbreak =>
    cases channel with
    | nil =>
      simp only [List.isEmpty_nil, if_true, reduceCtorEq, false_iff]
      rintro ⟨⟨other, hother⟩, hne⟩
      simp only [hbreak, Option.some.injEq, Prod.mk.injEq] at hother
      exact hne hother.2.symm
    | cons head tail =>
      rw [hbreak, List.isEmpty_cons, if_neg Bool.false_ne_true, Option.some.injEq]
      constructor
      · rintro rfl
        simp
      · rintro ⟨⟨other, hother⟩, _⟩
        simp only [Option.some.injEq, Prod.mk.injEq] at hother
        rw [hother.2, String.ofList_toList]
  next hbreak => simp [hbreak]

theorem breakOn_key_iff {marker key : String} {front : List Char} {channel : Channel}
    (hkey : key.toList = front ++ marker.toList ++ channel.toList) (hmarker : marker.toList ≠ []) :
    (∃ before, Markers.breakOn marker.toList key.toList = some (before, channel.toList)) ↔
      ¬ marker.toList <:+: front ++ marker.toList.dropLast := by
  rw [← Markers.breakOn_append_iff hmarker front channel.toList, ← hkey]
  refine ⟨fun ⟨before, hbreak⟩ => ?_, fun hbreak => ⟨front, hbreak⟩⟩
  have hsame := (Markers.eq_of_breakOn hbreak).symm.trans hkey
  rw [List.append_cancel_right_eq, List.append_cancel_right_eq] at hsame
  rw [hbreak, hsame]

theorem secondOfTwo_iff {marker key : String} {front : List Char} {channel : Channel}
    (hkey : key.toList = front ++ marker.toList ++ channel.toList)
    (hcolon : ':' ∈ marker.toList) (hvalid : channel.isValidName = true) :
    secondOfTwo marker key = some channel ↔
      ¬ marker.toList <:+: front ++ marker.toList.dropLast := by
  have hmarker : marker.toList ≠ [] := List.ne_nil_of_mem hcolon
  have hfree := Markers.breakOn_eq_none_of_not_mem hcolon (Channel.colon_not_mem hvalid)
  rw [secondOfTwo_eq_some, and_iff_left (Channel.toList_ne_nil hvalid),
    ← breakOn_key_iff hkey hmarker]
  simp only [Markers.split_eq_pair_iff hmarker, hfree, and_true]

theorem afterFirst_iff {marker key : String} {front : List Char} {channel : Channel}
    (hkey : key.toList = front ++ marker.toList ++ channel.toList)
    (hmarker : marker.toList ≠ []) (hvalid : channel.isValidName = true) :
    afterFirst marker key = some channel ↔
      ¬ marker.toList <:+: front ++ marker.toList.dropLast := by
  rw [afterFirst_eq_some, and_iff_left (Channel.toList_ne_nil hvalid), breakOn_key_iff hkey hmarker]

theorem secondOfTwo_broadcast_ne (keyPrefix channel : String) :
    secondOfTwo ":sched_broadcast:" (JobKeys.sched keyPrefix channel) ≠ some channel := by
  intro hsecond
  obtain ⟨⟨before, hsplit⟩, _⟩ := secondOfTwo_eq_some.mp hsecond
  have hbreak := ((Markers.split_eq_pair_iff (by decide)).mp hsplit).1
  have hsame := (Markers.eq_of_breakOn hbreak).symm.trans (JobKeys.toList_sched keyPrefix channel)
  have hmarker : ":sched_broadcast:".toList = ":sched_bro".toList ++ "adcast:".toList := by
    decide
  rw [List.append_cancel_right_eq, hmarker, ← List.append_assoc] at hsame
  have hlength : "adcast:".toList.length = ":sched:".toList.length := by decide +kernel
  exact absurd (List.append_inj_right' hsame hlength) (by decide +kernel)

section Scan

variable {glob : String → String → Bool} {keyPrefix : String} {channel : Channel}

theorem mem_seedRegistry {name : Channel} :
    name ∈ seedRegistry glob keyPrefix [JobKeys.sched keyPrefix channel] ↔
      (glob (keyPrefix ++ ":sched:*") (JobKeys.sched keyPrefix channel) = true ∧
        secondOfTwo ":sched:" (JobKeys.sched keyPrefix channel) = some name) ∨
      (glob (keyPrefix ++ ":sched_broadcast:*") (JobKeys.sched keyPrefix channel) = true ∧
        secondOfTwo ":sched_broadcast:" (JobKeys.sched keyPrefix channel) = some name) := by
  simp [seedRegistry, List.mem_filterMap, List.mem_filter]

theorem mem_unconsumedChannels {name : Channel} :
    name ∈ unconsumedChannels glob keyPrefix [JobKeys.queue keyPrefix channel] ↔
      glob (keyPrefix ++ ":*:queue:*") (JobKeys.queue keyPrefix channel) = true ∧
        afterFirst ":queue:" (JobKeys.queue keyPrefix channel) = some name := by
  simp [unconsumedChannels, List.mem_filterMap, List.mem_filter]

theorem channelOfQueueKey_queue (hvalid : channel.isValidName = true) :
    channelOfQueueKey (JobKeys.queue keyPrefix channel) = channel := by
  have hkey : (JobKeys.queue keyPrefix channel).toList =
      ((keyPrefix ++ ":" ++ JobKeys.queueTag).toList ++ ":queue".toList) ++
        ':' :: channel.toList := by
    rw [JobKeys.toList_queue, List.append_assoc, List.append_assoc]
    rfl
  rw [channelOfQueueKey, hkey, Markers.lastPart_append (Channel.colon_not_mem hvalid),
    String.ofList_toList]

theorem queue_inj {other : Channel}
    (heq : JobKeys.queue keyPrefix channel = JobKeys.queue keyPrefix other) : channel = other := by
  have hlist := congrArg String.toList heq
  rw [JobKeys.toList_queue, JobKeys.toList_queue, List.append_cancel_left_eq] at hlist
  exact String.toList_inj.mp hlist

theorem sched_inj {other : Channel}
    (heq : JobKeys.sched keyPrefix channel = JobKeys.sched keyPrefix other) : channel = other := by
  have hlist := congrArg String.toList heq
  rw [JobKeys.toList_sched, JobKeys.toList_sched, List.append_cancel_left_eq] at hlist
  exact String.toList_inj.mp hlist

theorem separates_iff : separates keyPrefix = true ↔
    ¬ ":sched:".toList <:+: keyPrefix.toList ++ ":sched".toList ∧
      ¬ ":queue:".toList <:+: (keyPrefix ++ ":" ++ JobKeys.queueTag).toList ++ ":queue".toList := by
  change (!decide (":sched:".toList <:+: keyPrefix.toList ++ ":sched".toList) &&
    !decide (":queue:".toList <:+: (keyPrefix ++ ":" ++ JobKeys.queueTag).toList ++
      ":queue".toList)) = true ↔ _
  simp only [Bool.and_eq_true, Bool.not_eq_true', decide_eq_false_iff_not]

/-- A valid channel name makes the round trip exactly when it does not end in a line feed,
no marker begins inside the key prefix, and the scans find its keys. -/
theorem channelRoundTrips_iff (glob : String → String → Bool) (keyPrefix : String)
    (channel : Channel) (hvalid : channel.isValidName = true) :
    RoundTrips glob keyPrefix channel ↔
      channel.toList.getLast? ≠ some '\n' ∧ separates keyPrefix = true ∧
        isScanned glob keyPrefix channel = true := by
  have hsched : secondOfTwo ":sched:" (JobKeys.sched keyPrefix channel) = some channel ↔
      ¬ ":sched:".toList <:+: keyPrefix.toList ++ ":sched".toList :=
    secondOfTwo_iff (JobKeys.toList_sched keyPrefix channel) (by decide) hvalid
  have hqueue : afterFirst ":queue:" (JobKeys.queue keyPrefix channel) = some channel ↔
      ¬ ":queue:".toList <:+: (keyPrefix ++ ":" ++ JobKeys.queueTag).toList ++ ":queue".toList :=
    afterFirst_iff (JobKeys.toList_queue keyPrefix channel) (by decide) hvalid
  have hbroadcast := secondOfTwo_broadcast_ne keyPrefix channel
  rw [separates_iff, isScanned]
  simp only [Bool.and_eq_true, Bool.not_eq_true', Bool.and_eq_false_iff]
  constructor
  · intro hround
    obtain ⟨hseeds, hown⟩ | ⟨_, hother⟩ := mem_seedRegistry.mp ((hround.seeded channel).mpr rfl)
    case inr => exact absurd hother hbroadcast
    obtain ⟨hfinds, hunconsumed⟩ := mem_unconsumedChannels.mp ((hround.found channel).mpr rfl)
    refine ⟨(Channel.isCleanName_iff hvalid).mp hround.clean, ⟨hsched.mp hown,
      hqueue.mp hunconsumed⟩, ⟨hseeds, hfinds⟩, ?_⟩
    by_cases hscan : glob (keyPrefix ++ ":sched_broadcast:*") (JobKeys.sched keyPrefix channel) =
      true
    case neg => exact .inl (by simpa using hscan)
    right
    cases hsecond : secondOfTwo ":sched_broadcast:" (JobKeys.sched keyPrefix channel) with
    | none => rfl
    | some name =>
      have hname := (hround.seeded name).mp (mem_seedRegistry.mpr (.inr ⟨hscan, hsecond⟩))
      exact absurd (hname ▸ hsecond) hbroadcast
  · rintro ⟨hclean, ⟨hfirst, hsecond⟩, ⟨hseeds, hfinds⟩, hquiet⟩
    refine ⟨(Channel.isCleanName_iff hvalid).mpr hclean, channelOfQueueKey_queue hvalid,
      fun name => ?_, fun name => ?_, fun _ => queue_inj, fun _ => sched_inj⟩
    · rw [mem_seedRegistry, hsched.mpr hfirst, Option.some.injEq]
      constructor
      · rintro (⟨_, heq⟩ | ⟨hscan, hother⟩)
        · exact heq.symm
        · obtain hmissed | hnone := hquiet
          · rw [hscan] at hmissed
            cases hmissed
          · rw [hother] at hnone
            cases hnone
      · exact fun heq => .inl ⟨hseeds, heq.symm⟩
    · rw [mem_unconsumedChannels, hqueue.mpr hsecond, Option.some.injEq]
      exact ⟨fun ⟨_, heq⟩ => heq.symm, fun heq => ⟨hfinds, heq.symm⟩⟩

/-- The default key prefix with the default channel. -/
theorem roundTrips_default :
    RoundTrips (fun pattern key => starMatch pattern.toList key.toList) "mojo:jobs" "default" :=
  (channelRoundTrips_iff _ "mojo:jobs" "default" (by decide +kernel)).mpr
    ⟨by decide +kernel, by decide +kernel, by decide +kernel⟩

/-- A name that ends in a line feed is accepted. -/
theorem not_roundTrips_lineFeed :
    Channel.isValidName "default\n" = true ∧
      ¬ RoundTrips (fun pattern key => starMatch pattern.toList key.toList) "mojo:jobs"
        "default\n" :=
  ⟨by decide +kernel, fun hround => absurd hround.clean (by decide +kernel)⟩

end Scan

/-! ### Key prefixes without glob characters -/

/-! ### All keys -/

/-- The keys of `JobKeys`, but for those of the streams of earlier versions. -/
inductive JobKey where
  | queue (channel : Channel) | processing (channel : Channel) | sched (channel : Channel)
  | schedBroadcast (channel : Channel) | schedRegistry | reaperLock (channel : Channel)
  | channelPause (channel : Channel) | job (id : String) | runnerCtl (runner : String)
  | runnerHb (runner : String) | runnerRegistry (channel : Channel) | schedulerLock
  | statsCounter (metric : String) | registryKey | idempotency (key : String)

namespace JobKey

/-- What follows the prefix, from colon to colon. -/
def parts : JobKey → List String
  | .queue channel => [JobKeys.queueTag, "queue", channel]
  | .processing channel => ["processing", channel]
  | .sched channel => ["sched", channel]
  | .schedBroadcast channel => ["sched_broadcast", channel]
  | .schedRegistry => ["sched_registry"]
  | .reaperLock channel => ["lock", "reaper", channel]
  | .channelPause channel => ["channel", channel, "paused"]
  | .job id => ["job", id]
  | .runnerCtl runner => ["runner", runner, "ctl"]
  | .runnerHb runner => ["runner", runner, "hb"]
  | .runnerRegistry channel => ["runner_registry", channel]
  | .schedulerLock => ["lock", "scheduler"]
  | .statsCounter metric => ["stats", metric]
  | .registryKey => ["registry"]
  | .idempotency key => ["idempotent", key]

def text (keyPrefix : String) (key : JobKey) : String := ":".intercalate (keyPrefix :: key.parts)

def word (key : JobKey) : List Char := (key.parts.headD "").toList

def tail (key : JobKey) : List Char := key.parts.tail.flatMap fun part => ':' :: part.toList

example (channel : Channel) :
    text "mojo:jobs" (.queue channel) = JobKeys.queue "mojo:jobs" channel := rfl

theorem toList_text (keyPrefix : String) (key : JobKey) :
    (key.text keyPrefix).toList = keyPrefix.toList ++ ':' :: (key.word ++ key.tail) := by
  cases key <;> simp [text, parts, word, tail]

theorem takeWhile_word (key : JobKey) : (key.word ++ key.tail).takeWhile (· ≠ ':') = key.word := by
  have htail : key.tail.takeWhile (· ≠ ':') = [] := by cases key <;> simp [tail, parts]
  rw [List.takeWhile_append_of_pos (by cases key <;> simp [word, parts, JobKeys.queueTag]), htail, List.append_nil]

/-- Two structures never share a key, whatever names and prefix the keys are built from. -/
theorem text_injective (keyPrefix : String) : Function.Injective (text keyPrefix) := by
  intro first second heq
  have htext : first.word ++ first.tail = second.word ++ second.tail := by
    have hlist := congrArg String.toList heq
    rw [toList_text, toList_text] at hlist
    exact (List.cons.inj (List.append_cancel_left hlist)).2
  have hword : first.word = second.word := by
    rw [← takeWhile_word first, htext, takeWhile_word]
  have htail : first.tail = second.tail := by
    rw [hword] at htext
    exact List.append_cancel_left htext
  cases first <;> cases second <;>
    simp [word, tail, parts, JobKeys.queueTag, String.toList_inj] at hword htail ⊢
  case runnerCtl.runnerHb | runnerHb.runnerCtl =>
    exact absurd (congrArg List.getLast? htail) (by simp)
  all_goals exact htail

end JobKey

end DjangoMojo.Jobs
