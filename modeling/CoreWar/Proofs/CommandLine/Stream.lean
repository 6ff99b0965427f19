import CoreWar.CommandLine.Report
import CoreWar.Proofs.Admission
import CoreWar.Proofs.Codec.RoundTrip

/-!
Contract: what a battle prints when its events are reported as lines of JSON.

Owns:
- the events of a battle, from the first source loaded to the end of the match;
- the output of loading and of the match, one line for each event that is shown;
- the lines as they are cut and decoded again.

Does not own: the text of an event, see `CoreWar.Proofs.Codec.RoundTrip`.

A line is ended by a line feed, and no event has one in its text: a line feed in a name or a message
is escaped. So the output can be cut at its line feeds.
-/

namespace CoreWar

namespace Battle

/-- The events of a battle between the warriors of these sources: those of loading, and those of the
match, which is only played if a warrior was placed. -/
def story (battle : Battle) (sources : List String) : List Event :=
  let (loaded, events) := battle.loadSources sources
  if loaded.roster.isEmpty then events else events ++ loaded.run.log.toList

end Battle

namespace CommandLine

/-! ## The line of an event -/

/-- The text of an event on its line. -/
def jsonLine (event : Event) : List Char :=
  Json.render event.toJson

/-- No event has a line feed or a carriage return in its text. -/
theorem notMem_jsonLine {character : Char} (control : character.toNat < 0x20) (event : Event) :
    character ∉ jsonLine event := by
  intro member
  have printable := Json.printable_render event.toJson character member
  omega

/-- Lines of events are found again when their text is cut into lines. -/
theorem lines_unlines_of_jsonLines
    {lines : List (List Char)}
    (events : ∀ line ∈ lines, ∃ event, line = jsonLine event) :
    Text.lines (Text.unlines lines) = lines := by
  have noFeed : ∀ line ∈ lines, '\n' ∉ line := by
    intro line member
    obtain ⟨event, rfl⟩ := events line member
    exact notMem_jsonLine (by decide) event
  have noReturn : ∀ line ∈ lines, Text.withoutReturn line = line := by
    intro line member
    obtain ⟨event, rfl⟩ := events line member
    apply if_neg
    intro last
    exact notMem_jsonLine (by decide) event (List.mem_of_getLast? last)
  rw [Text.lines_unlines lines noFeed, List.map_congr_left (g := id) noReturn, List.map_id]

/-- A line of the output read as an event. -/
def decodeLine? (line : List Char) : Option Event :=
  Json.decode? Event.ofJson? (String.ofList line)

theorem decodeLine?_jsonLine (event : Event) : decodeLine? (jsonLine event) = some event :=
  Json.decode?_toText event.ofJson?_toJson

/-- A line that is read as a step. -/
def isStepLine (line : List Char) : Bool :=
  (decodeLine? line).any Event.isStep

theorem isStepLine_jsonLine (event : Event) : isStepLine (jsonLine event) = event.isStep := by
  rw [isStepLine, decodeLine?_jsonLine, Option.any_some]

/-! ## Reporting events -/

namespace EventStyle

/-- The output of events in JSON: the lines of those that are shown. -/
def output (style : EventStyle) (events : List Event) : List Char :=
  Text.unlines ((events.filter style.shows).map jsonLine)

theorem output_append (style : EventStyle) (front back : List Event) :
    style.output (front ++ back) = style.output front ++ style.output back := by
  simp [output, Text.unlines]

theorem toList_line
    {style : EventStyle}
    (json : style.json = true)
    (event : Event) :
    (style.line event).toList = style.output [event] := by
  cases shown : style.shows event with
  | false => simp [line, output, shown, Text.unlines]
  | true => simp [line, output, shown, json, Text.unlines, Json.toText, jsonLine]

/-- In JSON every event goes to the standard output, an error too. -/
theorem announce_of_json
    {style : EventStyle}
    (json : style.json = true)
    (report : Report)
    (event : Event) :
    style.announce report event = report.print (style.line event) := by
  cases event with
  | step warrior address instruction => rfl
  | fault warrior address message => rfl
  | died warrior => rfl
  | won warrior => rfl
  | tie cycles => rfl
  | error message => exact if_pos json

theorem announceAll_append
    (style : EventStyle)
    (report : Report)
    (front back : List Event) :
    style.announceAll report (front ++ back) =
      style.announceAll (style.announceAll report front) back :=
  List.foldl_append

/-- Reported events add their output and nothing else. -/
theorem announceAll_of_json
    {style : EventStyle}
    (json : style.json = true)
    (report : Report)
    (events : List Event) :
    style.announceAll report events = report.print (String.ofList (style.output events)) := by
  induction events generalizing report with
  | nil =>
      show report = report.print (String.ofList [])
      simp [Report.print]
  | cons event rest inductionHypothesis =>
      have first : String.ofList (style.output [event]) = style.line event := by
        rw [← toList_line json, String.ofList_toList]
      rw [← List.singleton_append, announceAll_append, output_append, String.ofList_append, first,
        inductionHypothesis]
      show ((style.announce report event).print _) = _
      rw [announce_of_json json]
      simp [Report.print, String.append_assoc]

/-- With steps shown, every event has its line. -/
theorem output_traced (json : Bool) (events : List Event) :
    output ⟨true, json⟩ events = Text.unlines (events.map jsonLine) := by
  have all : events.filter (EventStyle.shows ⟨true, json⟩) = events :=
    List.filter_eq_self.mpr fun _ _ => rfl
  rw [output, all]

/-- Without them, the lines that are read as steps are missing, and only they. -/
theorem output_untraced (json : Bool) (events : List Event) :
    output ⟨false, json⟩ events =
      Text.unlines ((events.map jsonLine).filter fun line => !isStepLine line) := by
  rw [output, List.filter_map]
  congr 2
  apply List.filter_congr
  intro event _
  simp [shows, isStepLine_jsonLine]

end EventStyle

/-! ## The battle -/

/-- Files that can be read are loaded one after the other. -/
theorem loadAll_of_readable
    {files : Files}
    {paths sources : List String}
    (readable : paths.map files = sources.map .ok)
    (style : EventStyle)
    (battle : Battle)
    (report : Report) :
    loadAll files style battle report paths =
      ((battle.loadSources sources).1, style.announceAll report (battle.loadSources sources).2,
        .ok ()) := by
  induction paths generalizing sources battle report with
  | nil =>
      obtain rfl : sources = [] := List.map_eq_nil_iff.mp readable.symm
      rfl
  | cons path rest inductionHypothesis =>
      cases sources with
      | nil => contradiction
      | cons source others =>
          rw [List.map_cons, List.map_cons, List.cons.injEq] at readable
          have read : readSource files path = .ok source := by
            rw [readSource, readable.1]
            rfl
          rw [loadAll, read, Battle.loadSources_cons, EventStyle.announceAll_append]
          exact inductionHypothesis readable.2 _ _

section Battle

variable
  {files : Files}
  {entropy : UInt64}
  {options : BattleOptions}
  (json : options.json = true)
  (noDump : options.dump = false)
include json noDump

/-- A match adds the output of its events. -/
theorem reportMatch_of_json (battle : Battle) (report : Report) :
    reportMatch options battle report =
      EventStyle.announceAll ⟨options.trace, options.json⟩ report battle.run.log.toList := by
  simp [reportMatch, json, noDump]

variable
  {limits : Limits}
  (resolved : options.limits.resolve files = .ok limits)
  {fresh : Battle}
  (created : Battle.create limits (.ofSeed (options.seed.getD entropy)) = .ok fresh)
  {sources : List String}
  (readable : options.warriors.map files = sources.map .ok)
include resolved created readable

/-- The standard output of a battle is the output of its events. -/
theorem stdout_runBattle :
    (runBattle files entropy options).stdout.toList =
      EventStyle.output ⟨options.trace, options.json⟩ (fresh.story sources) := by
  have loaded := loadAll_of_readable readable ⟨options.trace, options.json⟩ fresh {}
  unfold runBattle Battle.story
  simp only [resolved, created, loaded, reportMatch_of_json json noDump]
  rw [← EventStyle.announceAll_append]
  split
  · rw [EventStyle.announceAll_of_json json]
    simp [Report.fail, Report.complain, Report.print]
  · rw [EventStyle.announceAll_of_json json]
    simp [Report.print]

end Battle

/-- The stream of events of a battle is lossless. The output with steps is one line for each event
that happens from the first source loaded to the end, in their order, and each line is read as its
event. The output without steps is made of the same lines, except for those of steps. -/
theorem json_stream_lossless
    {files : Files}
    {entropy : UInt64}
    {options : BattleOptions}
    (json : options.json = true)
    (noDump : options.dump = false)
    {limits : Limits}
    (resolved : options.limits.resolve files = .ok limits)
    {fresh : Battle}
    (created : Battle.create limits (.ofSeed (options.seed.getD entropy)) = .ok fresh)
    {sources : List String}
    (readable : options.warriors.map files = sources.map .ok) :
    let traced := (Command.run files entropy (.battle { options with trace := true })).stdout
    let untraced := (Command.run files entropy (.battle { options with trace := false })).stdout
    ∃ lines : List (List Char),
      traced.toList = Text.unlines lines ∧
      Text.lines traced.toList = lines ∧
      lines.map decodeLine? = (fresh.story sources).map some ∧
      untraced.toList = Text.unlines (lines.filter fun line => !isStepLine line) ∧
      Text.lines untraced.toList = lines.filter fun line => !isStepLine line := by
  intro traced untraced
  have tracedText : traced.toList = Text.unlines ((fresh.story sources).map jsonLine) := by
    rw [← EventStyle.output_traced options.json]
    exact @stdout_runBattle files entropy { options with trace := true } json noDump limits
      resolved fresh created sources readable
  have untracedText : untraced.toList =
      Text.unlines (((fresh.story sources).map jsonLine).filter fun line => !isStepLine line) := by
    rw [← EventStyle.output_untraced options.json]
    exact @stdout_runBattle files entropy { options with trace := false } json noDump limits
      resolved fresh created sources readable
  have events : ∀ line ∈ (fresh.story sources).map jsonLine, ∃ event, line = jsonLine event := by
    intro line member
    obtain ⟨event, _, rfl⟩ := List.mem_map.mp member
    exact ⟨event, rfl⟩
  refine ⟨(fresh.story sources).map jsonLine, tracedText, ?_, ?_, untracedText, ?_⟩
  · rw [tracedText]
    exact lines_unlines_of_jsonLines events
  · rw [List.map_map]
    exact List.map_congr_left fun event _ => decodeLine?_jsonLine event
  · rw [untracedText]
    exact lines_unlines_of_jsonLines fun line member => events line (List.mem_of_mem_filter member)

/-- A battle with a rejected source, a backslash and a quotation mark in a name, and a tab in the
other. -/
theorem json_stream_lossless_rejection :
    let mover := "; redcode\n; name im\"p\\\n; assert 1\nMOV 0, 1\n"
    let faulty := "; redcode\n; name q\n; assert 1\nMOV \"x\\\n"
    let halt := "; redcode\n; name two\twords\n; assert 1\nDAT 0, 0\n"
    let folder := [("mover", mover), ("faulty", faulty), ("halt", halt)]
    let files : Files := fun path => (folder.lookup path).elim (.error .missing) .ok
    let limits : Limits := ⟨8, 2, 3, 2⟩
    let options : BattleOptions :=
      { warriors := ["mover", "faulty", "halt"]
        limits := ⟨none, some 8, some 2, some 3, some 2⟩
        seed := some 1
        json := true }
    let fresh : Battle := { limits, core := .ofSize 8, generator := .ofSeed 1 }
    let rejected : Event :=
      .error "Warrior loading error: syntax error on line 4: unsupported addressing mode: \"x\\"
    let steps : List Event :=
      [.step "im\"p\\0" 3 ⟨.mov, ⟨.direct, 0⟩, ⟨.direct, 1⟩⟩,
        .step "two\twords1" 5 ⟨.dat, ⟨.direct, 0⟩, ⟨.direct, 0⟩⟩]
    let ending : List Event := [.died "two\twords1", .won "im\"p\\0"]
    let traced := (Command.run files 0 (.battle { options with trace := true })).stdout
    let untraced := (Command.run files 0 (.battle { options with trace := false })).stdout
    options.limits.resolve files = .ok limits ∧
    Battle.create limits (.ofSeed (options.seed.getD 0)) = .ok fresh ∧
    options.warriors.map files = [mover, faulty, halt].map .ok ∧
    (Text.lines traced.toList).map decodeLine? = (rejected :: (steps ++ ending)).map some ∧
    (Text.lines untraced.toList).map decodeLine? = (rejected :: ending).map some := by
  intro mover faulty halt folder files limits options fresh rejected steps ending traced untraced
  have resolved : options.limits.resolve files = .ok limits := rfl
  have created : Battle.create limits (.ofSeed (options.seed.getD 0)) = .ok fresh := by
    decide +kernel
  have readable : options.warriors.map files = [mover, faulty, halt].map .ok := by
    decide +kernel
  have story : fresh.story [mover, faulty, halt] = rejected :: (steps ++ ending) := by
    decide +kernel
  obtain ⟨lines, _, cut, decoded, _, untracedCut⟩ :=
    json_stream_lossless rfl rfl resolved created readable
  rw [story] at decoded
  refine ⟨resolved, created, readable, by rw [cut, decoded], ?_⟩
  have kept : (lines.filter fun line => !isStepLine line).map decodeLine? =
      (lines.map decodeLine?).filter fun event => !event.any Event.isStep := by
    rw [List.filter_map]
    rfl
  rw [untracedCut, kept, decoded]
  rfl

end CommandLine

end CoreWar
