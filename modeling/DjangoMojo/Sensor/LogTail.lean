import DjangoMojo.Sensor.Nginx

/-! # Every line of the log once

A poll hands over the complete lines of its chunk when the chunk begins with a record,
holds no carriage return, and does not end in the middle of a line because it is full.
A run of such polls hands every line of the log over, once and in order.
-/

namespace DjangoMojo.Sensor

open Foundation

variable {Found : Type} (config : NginxConfig) (digest : Bytes → String)
  (detect : LineDetector Found)

/-- What was handed over are the first complete lines of the log, and all of them once a
poll has read to its end; the lines being within the limit. -/
def ExactlyOnce (state : LogState) : Prop :=
  (∀ line ∈ completeLines state.file.content, line.length ≤ config.maxLineBytes) →
    state.handed <+: completeLines state.file.content ∧
      (state.drained = true → state.handed = completeLines state.file.content)

def LogState.chunk (state : LogState) : Bytes :=
  (state.file.content.drop (state.file.readOffset config digest state.cursor)).take
    config.maxBytesPerPoll

/-- The chunk that the poll reads holds no carriage return, begins with a brace unless it
is the first one, and is not full without ending a line. -/
def PollsWholeLines (state : LogState) : LogAction → Prop
  | .append _ => True
  | .poll =>
    let chunk := state.chunk config digest
    carriageReturn ∉ chunk ∧
      (state.file.readOffset config digest state.cursor = 0 ∨ chunk = [] ∨
        startsWithBrace chunk = true) ∧
      (chunk.length < config.maxBytesPerPoll ∨ Terminated chunk)

instance (state : LogState) (action : LogAction) :
    Decidable (PollsWholeLines config digest state action) := by
  cases action
  · exact inferInstanceAs (Decidable True)
  · exact inferInstanceAs (Decidable (_ ∧ _ ∧ _))

/-! ### One chunk -/

section

variable {maximum offset : Nat} {complete unfinished : Bytes}

theorem endsWithNewline_iff {data : Bytes} (hnonempty : data ≠ []) :
    endsWithNewline data = true ↔ Terminated data := by
  rw [endsWithNewline, decide_eq_true_eq, List.getLast?_eq_some_iff, Terminated]
  exact (or_iff_right hnonempty).symm

theorem endsWithNewline_append (hnone : newline ∉ unfinished) (hnonempty : unfinished ≠ []) :
    endsWithNewline (complete ++ unfinished) = false := by
  rw [← Bool.not_eq_true, endsWithNewline, decide_eq_true_eq,
    List.getLast?_append_of_ne_nil _ hnonempty]
  intro hlast
  exact hnone (List.mem_of_getLast? hlast)

/-- A chunk of whole lines and the beginning of one hands over the whole ones, and leaves
the rest for the next poll. -/
theorem chunkLines_append (hcomplete : Terminated complete) (hunfinished : newline ∉ unfinished)
    (hreturns : carriageReturn ∉ complete ++ unfinished)
    (hstart : offset = 0 ∨ complete ++ unfinished = [] ∨
      startsWithBrace (complete ++ unfinished) = true)
    (hshort : unfinished = [] ∨ (complete ++ unfinished).length < maximum) :
    chunkLines maximum offset (complete ++ unfinished) =
      (completeLines complete, offset + complete.length, 0) := by
  rw [List.mem_append, not_or] at hreturns
  have hresumed : (offset ≠ 0 && !(complete ++ unfinished).isEmpty &&
      !startsWithBrace (complete ++ unfinished)) = false := by
    rcases hstart with hfirst | hempty | hbrace
    · simp [hfirst]
    · simp [hempty]
    · simp [hbrace]
  have hlines : splitLines (complete ++ unfinished) =
      completeLines complete ++ splitLines unfinished := splitLines_append hcomplete hreturns.1
  unfold chunkLines
  simp only [hresumed, Bool.false_eq_true, if_false, hlines]
  cases unfinished with
  | nil =>
    have hwhole : (complete.isEmpty || endsWithNewline complete) = true := by
      cases complete with
      | nil => rfl
      | cons byte rest =>
        rw [Bool.or_eq_true]
        exact .inr ((endsWithNewline_iff (List.cons_ne_nil _ _)).mpr hcomplete)
    simp [hwhole, splitLines]
  | cons byte rest =>
    have hopen : ((complete ++ byte :: rest).isEmpty ||
        endsWithNewline (complete ++ byte :: rest)) = false := by
      rw [Bool.or_eq_false_iff]
      exact ⟨by simp, endsWithNewline_append hunfinished (List.cons_ne_nil _ _)⟩
    have hroom : ¬ maximum ≤ (complete ++ byte :: rest).length := by
      rcases hshort with hnone | hshort
      · cases hnone
      · omega
    have hline := splitLines_of_not_mem hunfinished hreturns.2 (List.cons_ne_nil _ _)
    simp only [hopen, Bool.false_eq_true, if_false, if_neg hroom, hline, List.dropLast_concat,
      List.getLast?_append, List.getLast?_singleton, Option.some_or, Option.getD_some]
    rw [List.length_append]
    congr 2
    omega

theorem anchorOffset_append (hcomplete : Terminated complete) (hunfinished : newline ∉ unfinished)
    (hshort : unfinished = [] ∨ (complete ++ unfinished).length < maximum) :
    anchorOffset maximum offset (complete ++ unfinished) = offset + complete.length := by
  unfold anchorOffset
  split
  · rw [completeLength_append hcomplete hunfinished]
  next hwhole =>
    cases unfinished with
    | nil => rw [List.append_nil]
    | cons byte rest =>
      exfalso
      apply hwhole
      have hopen : endsWithNewline (complete ++ byte :: rest) = false :=
        endsWithNewline_append hunfinished (List.cons_ne_nil _ _)
      rcases hshort with hnone | hshort
      · cases hnone
      · simpa [hopen] using hshort

end

/-! ### Runs -/

/-- The cursor is at the end of a line, with the digest of the bytes before it, and the
lines up to it were handed over. -/
structure LogState.Sound (state : LogState) : Prop where
  cursor : ∃ offset, state.cursor = some
      { device := state.file.device, inode := state.file.inode, offset := offset,
        anchorSha256 := some (anchor digest state.file.content offset) } ∧
    offset ≤ state.file.content.length ∧ Terminated (state.file.content.take offset) ∧
    ((∀ line ∈ completeLines state.file.content, line.length ≤ config.maxLineBytes) →
      state.handed = completeLines (state.file.content.take offset)) ∧
    (state.drained = true → newline ∉ state.file.content.drop offset)

variable {config digest}

theorem anchor_append {content : Bytes} {offset : Nat} (hoffset : offset ≤ content.length)
    (bytes : Bytes) : anchor digest (content ++ bytes) offset = anchor digest content offset := by
  unfold anchor
  simp only
  rw [List.drop_append_of_le_length (by omega), List.take_append_of_le_length]
  rw [List.length_drop]
  omega

theorem readOffset_saved (hdigest : ∀ bytes, (digest bytes).length = 64) (file : LogFile)
    {offset : Nat} (hoffset : offset ≤ file.content.length) :
    file.readOffset config digest (some
      { device := file.device, inode := file.inode, offset := offset,
        anchorSha256 := some (anchor digest file.content offset) }) = offset := by
  have hlength : (anchor digest file.content offset).length = 64 := hdigest _
  have hstart : file.startOffset config digest (some
      { device := file.device, inode := file.inode, offset := offset,
        anchorSha256 := some (anchor digest file.content offset) }) = offset := by
    simp [LogFile.startOffset, Option.filter, hoffset, hlength]
  simp [LogFile.readOffset, hstart]

namespace LogState.Sound

variable {state : LogState}

theorem exactlyOnce (hstate : state.Sound config digest) : ExactlyOnce config state := by
  obtain ⟨offset, _, _, hterminated, hhanded, hdrained⟩ := hstate.cursor
  intro hshort
  have hsplit : completeLines state.file.content =
      completeLines (state.file.content.take offset) ++
        completeLines (state.file.content.drop offset) := by
    rw [← completeLines_append hterminated, List.take_append_drop]
  rw [hhanded hshort, hsplit]
  refine ⟨List.prefix_append _ _, ?_⟩
  intro hend
  rw [completeLines_of_not_mem (hdrained hend), List.append_nil]

theorem append (hstate : state.Sound config digest) (bytes : Bytes) :
    LogState.Sound config digest { state with
      file := { state.file with content := state.file.content ++ bytes }
      drained := false } := by
  obtain ⟨offset, hcursor, hoffset, hterminated, hhanded, _⟩ := hstate.cursor
  refine ⟨offset, ?_, ?_, ?_, ?_, nofun⟩
  · rw [anchor_append hoffset]
    exact hcursor
  · rw [List.length_append]
    exact Nat.le_trans hoffset (Nat.le_add_right _ _)
  · rw [List.take_append_of_le_length hoffset]
    exact hterminated
  · intro hshort
    rw [List.take_append_of_le_length hoffset]
    apply hhanded
    intro line hline
    apply hshort
    -- The complete lines stay when bytes follow.
    obtain ⟨complete, unfinished, hcontent, hcomplete, hunfinished⟩ :=
      exists_complete state.file.content
    rw [hcontent, completeLines_append hcomplete, completeLines_of_not_mem hunfinished,
      List.append_nil] at hline
    rw [hcontent, List.append_assoc, completeLines_append hcomplete]
    exact List.mem_append_left _ hline

theorem polled (hdigest : ∀ bytes, (digest bytes).length = 64)
    (hstate : state.Sound config digest) (hpolls : PollsWholeLines config digest state .poll) :
    (state.polled config digest detect).Sound config digest := by
  obtain ⟨offset, hcursor, hoffset, hterminated, hhanded, _⟩ := hstate.cursor
  have hread : state.file.readOffset config digest state.cursor = offset := by
    rw [hcursor]
    exact readOffset_saved hdigest state.file hoffset
  obtain ⟨hreturns, hstart, hfull⟩ := hpolls
  rw [hread] at hstart
  obtain ⟨complete, unfinished, hchunk, hcomplete, hunfinished⟩ :=
    exists_complete (state.chunk config digest)
  have hshort : unfinished = [] ∨ (complete ++ unfinished).length < config.maxBytesPerPoll := by
    rw [← hchunk]
    rcases hfull with hshort | hwhole
    · exact .inr hshort
    · left
      by_contra hopen
      have hends : endsWithNewline (complete ++ unfinished) = false :=
        endsWithNewline_append hunfinished hopen
      rw [hchunk, ← endsWithNewline_iff (List.append_ne_nil_of_right_ne_nil _ hopen),
        hends] at hwhole
      cases hwhole
  have hdata : (state.file.content.drop offset).take config.maxBytesPerPoll =
      complete ++ unfinished := by
    rw [← hchunk, LogState.chunk, hread]
  rw [hchunk] at hreturns hstart
  have hlines : chunkLines config.maxBytesPerPoll offset (complete ++ unfinished) =
      (completeLines complete, offset + complete.length, 0) :=
    chunkLines_append hcomplete hunfinished hreturns hstart hshort
  have hanchor : anchorOffset config.maxBytesPerPoll offset (complete ++ unfinished) =
      offset + complete.length := anchorOffset_append hcomplete hunfinished hshort
  have hwhole : (state.file.content.drop offset).take complete.length = complete := by
    have htaken : ((state.file.content.drop offset).take config.maxBytesPerPoll).take
        complete.length = complete := by
      rw [hdata, List.take_left]
    rw [List.take_take, Nat.min_eq_left] at htaken
    · exact htaken
    · have hlength := List.length_take_le config.maxBytesPerPoll (state.file.content.drop offset)
      rw [hdata, List.length_append] at hlength
      omega
  have htake : state.file.content.take (offset + complete.length) =
      state.file.content.take offset ++ complete := by
    rw [List.take_add, hwhole]
  refine ⟨offset + complete.length, ?_, ?_, ?_, ?_, ?_⟩
  · simp only [LogState.polled, readPath, hread, hdata, hlines, hanchor]
  · change offset + complete.length ≤ state.file.content.length
    have hlength := congrArg List.length hwhole
    rw [List.length_take, List.length_drop] at hlength
    omega
  · change Terminated (state.file.content.take (offset + complete.length))
    rw [htake]
    exact hterminated.append hcomplete
  · intro hlimit
    change ∀ line ∈ completeLines state.file.content, _ at hlimit
    change state.handed ++ _ = completeLines (state.file.content.take (offset + complete.length))
    rw [htake, completeLines_append hterminated, hhanded hlimit]
    simp only [readPath, hread, hdata, hlines]
    rw [List.filter_eq_self.mpr]
    intro line hline
    have hinside : line ∈ completeLines state.file.content := by
      have hsplit := List.take_append_drop (offset + complete.length) state.file.content
      rw [← hsplit, completeLines_append (htake ▸ hterminated.append hcomplete), htake,
        completeLines_append hterminated]
      exact List.mem_append_left _ (List.mem_append_right _ hline)
    have hline := hlimit line hinside
    have hmaximum := config.maxLineBytes_eq
    rw [decide_eq_true_eq, NginxConfig.lineLimit]
    omega
  · intro hdrained
    change newline ∉ state.file.content.drop (offset + complete.length)
    simp only [LogState.polled, hread, decide_eq_true_eq] at hdrained
    have hrest : state.file.content.drop offset = complete ++ unfinished := by
      rw [← hdata, List.take_of_length_le]
      rw [List.length_drop]
      omega
    rw [← List.drop_drop, hrest, List.drop_left]
    exact hunfinished

theorem opened (device inode : Nat) :
    (LogState.opened config digest detect device inode).Sound config digest := by
  refine ⟨0, ?_, Nat.zero_le _, .inl rfl, fun _ => rfl, nofun⟩
  simp [LogState.opened, readPath, LogFile.readOffset, LogFile.startOffset, chunkLines,
    anchorOffset, Option.filter]

end LogState.Sound

/-- In every run whose polls read whole lines, the lines of the log are handed over once
and in order. -/
theorem exactlyOnce_of_pollsWholeLines (hdigest : ∀ bytes, (digest bytes).length = 64)
    (device inode : Nat) (actions : List LogAction)
    (hpolls : EachStep (logStep config digest detect)
      (fun state action _ => PollsWholeLines config digest state action)
      (LogState.opened config digest detect device inode) actions) :
    Always (logStep config digest detect) (ExactlyOnce config)
      (LogState.opened config digest detect device inode) actions := by
  have hsound : Always (logStep config digest detect) (LogState.Sound config digest)
      (LogState.opened config digest detect device inode) actions := by
    refine always_of_eachStep ?_ (LogState.Sound.opened detect device inode) hpolls
    intro state action next hstate hpolls hnext
    cases action with
    | append bytes =>
      cases hnext
      exact hstate.append bytes
    | poll =>
      cases hnext
      exact hstate.polled detect hdigest hpolls
  exact hsound.imp fun state hstate => hstate.exactlyOnce

/-! ### A line across two chunks -/

def smallChunks : NginxConfig where
  maxBytesPerPoll := 4096

/-- Digests that are right for the beginnings of a log of two empty records. -/
def logDigest (bytes : Bytes) : String :=
  if bytes = [0x7B, 0x7D, newline] then
    "ca3d163bab055381827226140568f3bef7eaac187cebd76878e0b63e9e442356"
  else if bytes = [0x7B, 0x7D, newline, 0x7B, 0x7D, newline] then
    "3b00ba5361676a0a8152642a6edaf54a222bd409b5774b5b461ac8d1cee09cb4"
  else "e3b0c44298fc1c149afbf4c8996fb92427ae41e4649b934ca495991b7852b855"

theorem length_logDigest (bytes : Bytes) : (logDigest bytes).length = 64 := by
  unfold logDigest
  split
  · decide
  · split
    · decide
    · decide

def noDetection : LineDetector Unit := fun _ => .ok none

section

variable {part rest : Bytes}

theorem chunkLines_full {maximum : Nat} (hnone : newline ∉ part) (hreturns : carriageReturn ∉ part)
    (hnonempty : part ≠ []) (hfull : maximum ≤ part.length) :
    chunkLines maximum 0 part = ([], part.length, 1) := by
  have hopen : endsWithNewline part = false := by
    have happended : endsWithNewline ([] ++ part) = false :=
      endsWithNewline_append hnone hnonempty
    rwa [List.nil_append] at happended
  simp [chunkLines, splitLines_of_not_mem hnone hreturns hnonempty, hopen, hfull, hnonempty]

def LogFile.cursorAt (file : LogFile) (offset : Nat) : NginxCursor :=
  { device := file.device, inode := file.inode, offset := offset,
    anchorSha256 := some (anchor logDigest file.content offset) }

theorem polled_at {file : LogFile} {offset : Nat} {handed : List Bytes} {drained : Bool}
    (hoffset : offset ≤ file.content.length) {data : Bytes}
    (hdata : (file.content.drop offset).take 4096 = data) {lines : List Bytes}
    {ending skipped : Nat} (hlines : chunkLines 4096 offset data = (lines, ending, skipped))
    (hanchor : anchorOffset 4096 offset data = ending) :
    LogState.polled smallChunks logDigest noDetection
        { file := file, cursor := some (file.cursorAt offset), handed := handed,
          drained := drained } =
      { file := file
        cursor := some (file.cursorAt ending)
        handed := handed ++ lines.filter fun line => line.length ≤ smallChunks.lineLimit
        drained := file.content.length ≤ offset + 4096 } := by
  have hread : file.readOffset smallChunks logDigest (some (file.cursorAt offset)) = offset :=
    readOffset_saved length_logDigest file hoffset
  have hchunk : (file.content.drop offset).take smallChunks.maxBytesPerPoll = data := hdata
  have hsplit : chunkLines smallChunks.maxBytesPerPoll offset data = (lines, ending, skipped) :=
    hlines
  have hsaved : anchorOffset smallChunks.maxBytesPerPoll offset data = ending := hanchor
  simp only [LogState.polled, readPath, hread, hchunk, hsplit, hsaved]
  rfl

/-- The polls of a line whose first part fills a chunk: the second hands over the rest of
the line as if it were the line. -/
theorem not_exactlyOnce_of_parts (hpart : part.length = 4096) (hrest : rest.length < 4096)
    (hnone : newline ∉ part ++ rest) (hreturns : carriageReturn ∉ part ++ rest)
    (hbrace : startsWithBrace rest = true) :
    ¬ Always (logStep smallChunks logDigest noDetection) (ExactlyOnce smallChunks)
      (LogState.opened smallChunks logDigest noDetection 0 0)
      [.append (part ++ rest ++ [newline]), .poll, .poll] := by
  intro halways
  have hline := completeLines_concat hnone
  rw [List.mem_append, not_or] at hnone hreturns
  have hnonempty : part ≠ [] := by
    rintro rfl
    cases hpart
  let file : LogFile := { device := 0, inode := 0, content := part ++ rest ++ [newline] }
  have hlength : file.content.length = 4096 + (rest.length + 1) := by
    simp [file, hpart]
  have happended : logStep smallChunks logDigest noDetection
      (LogState.opened smallChunks logDigest noDetection 0 0)
        (.append (part ++ rest ++ [newline])) =
      some { file := file, cursor := some (file.cursorAt 0) } := rfl
  have hfirst : LogState.polled smallChunks logDigest noDetection
      { file := file, cursor := some (file.cursorAt 0) } =
      { file := file, cursor := some (file.cursorAt 4096), handed := [], drained := false } := by
    have hdata : (file.content.drop 0).take 4096 = part := by
      rw [List.drop_zero]
      change (part ++ rest ++ [newline]).take 4096 = part
      rw [List.append_assoc, ← hpart, List.take_left]
    have hlines := chunkLines_full hnone.1 hreturns.1 hnonempty (Nat.le_of_eq hpart.symm)
    have hanchor : anchorOffset 4096 0 part = part.length := by
      simp [anchorOffset, hpart]
    rw [polled_at (Nat.zero_le _) hdata hlines hanchor, hpart]
    have hopen : ¬ file.content.length ≤ 0 + 4096 := by omega
    simp [hopen]
  have hsecond : LogState.polled smallChunks logDigest noDetection
      { file := file, cursor := some (file.cursorAt 4096), handed := [], drained := false } =
      { file := file, cursor := some (file.cursorAt (4096 + (rest.length + 1))), handed := [rest],
        drained := true } := by
    have hdata : (file.content.drop 4096).take 4096 = rest ++ [newline] := by
      change ((part ++ rest ++ [newline]).drop 4096).take 4096 = _
      rw [List.append_assoc, ← hpart, List.drop_left, List.take_of_length_le]
      rw [List.length_append, List.length_singleton, hpart]
      omega
    have hterminated : Terminated (rest ++ [newline]) := .inr ⟨rest, rfl⟩
    have hreturn : carriageReturn ∉ rest ++ [newline] ++ [] := by
      rw [List.append_nil, List.mem_append, not_or]
      exact ⟨hreturns.2, by decide⟩
    have hstarts : startsWithBrace (rest ++ [newline] ++ []) = true := by
      cases rest with
      | nil => cases hbrace
      | cons byte others => exact hbrace
    have hlines : chunkLines 4096 4096 (rest ++ [newline] ++ []) = _ :=
      chunkLines_append hterminated List.not_mem_nil hreturn (.inr (.inr hstarts)) (.inl rfl)
    have hanchor : anchorOffset 4096 4096 (rest ++ [newline] ++ []) = _ :=
      anchorOffset_append hterminated List.not_mem_nil (.inl rfl)
    rw [List.append_nil] at hlines hanchor
    rw [polled_at (by omega) hdata hlines hanchor, completeLines_concat hnone.2]
    have hend : file.content.length ≤ 4096 + 4096 := by omega
    have hlimit : rest.length ≤ smallChunks.lineLimit := by
      change rest.length ≤ 262144
      omega
    simp [hend, hlimit]
  have hnext := halways.2 _ happended
  have hnext := hnext.2 _ (congrArg some hfirst)
  have hlast := (hnext.2 _ (congrArg some hsecond)).head
  change completeLines (part ++ rest ++ [newline]) = [part ++ rest] at hline
  have hhanded : [rest] = completeLines (part ++ rest ++ [newline]) := by
    refine (hlast ?_).2 rfl
    change ∀ line ∈ completeLines (part ++ rest ++ [newline]), _
    rw [hline]
    intro line hmem
    rw [List.mem_singleton.mp hmem, List.length_append, hpart]
    change 4096 + rest.length ≤ 262144
    omega
  rw [hline, List.cons.injEq] at hhanded
  have hlengths := congrArg List.length hhanded.1
  rw [List.length_append, hpart] at hlengths
  omega

end

/-- A line of 5000 braces, longer than a chunk and far shorter than the limit. -/
theorem not_exactlyOnce_longLine :
    ¬ Always (logStep smallChunks logDigest noDetection) (ExactlyOnce smallChunks)
      (LogState.opened smallChunks logDigest noDetection 0 0)
      [.append (List.replicate 5000 0x7B ++ [newline]), .poll, .poll] := by
  have hnone (count : Nat) (byte : UInt8) (hbyte : (0x7B : UInt8) ≠ byte) :
      byte ∉ List.replicate count (0x7B : UInt8) :=
    fun hmem => hbyte (List.eq_of_mem_replicate hmem).symm
  have hparts : List.replicate 4096 (0x7B : UInt8) ++ List.replicate 904 0x7B =
      List.replicate 5000 0x7B := (List.replicate_add 4096 904 _).symm
  rw [← hparts]
  refine not_exactlyOnce_of_parts List.length_replicate ?_ ?_ ?_ ?_
  · rw [List.length_replicate]
    decide
  · rw [hparts]
    exact hnone _ _ (by decide)
  · rw [hparts]
    exact hnone _ _ (by decide)
  · rw [startsWithBrace, List.head?_replicate]
    decide

/-- A record that is complete only at the second poll. -/
theorem exactlyOnce_halfRecord :
    Always (logStep smallChunks logDigest noDetection) (ExactlyOnce smallChunks)
      (LogState.opened smallChunks logDigest noDetection 0 0)
      [.append [0x7B, 0x7D, newline, 0x7B], .poll, .append [0x7D, newline], .poll] :=
  exactlyOnce_of_pollsWholeLines noDetection length_logDigest 0 0 _ (by decide)

end DjangoMojo.Sensor
