/-
A run of the command line is a resolution of each path.

The sweep over the paths leaves every filesystem like the one that it started on, so
it comes to what a resolution of each path on its own comes to there
(`resolveAll_append`, by induction on the paths before a place): a path that fails
stops nothing and changes nothing for the others. What is written about a path is
what the streams carry of it. The sweep ends early only at an output that is not
taken, and what was written before it stays.

All of this is over libraries that do what they are documented to do. That leaves
open what the output carries of a path with an escape in it, which a link may lead
to although no argument has one. Where the output takes colouring sequences away,
another path is written than the one that was found (`colouring_is_cut_out`).
-/
import PathResolution.Proofs.CommandLine.Configuration
import PathResolution.Proofs.CommandLine.Standard
import PathResolution.Proofs.RealPath
import PathResolution.Proofs.Resolution.Independent

namespace PathResolution.CommandLine

variable {lib : Libraries} {i : Invocation} {env : Environment} {limits : Limits}
  {mode : ExistenceMode} {fs start : Filesystem} {path : Text} {written : Text → Text}
  {isPicture : Text → Bool}

-- ================================================================= paths

/-- The answer that is printed for a path. -/
def outputOf : Except Failure PathArgument → Option Text
  | .ok (.text canonical) => some canonical
  | _ => none

/-- The error that is reported for a path. -/
def errorOf : Except Failure PathArgument → Option ResolutionError
  | .error (.resolution e) => some e
  | _ => none

/-- What a path comes to by itself. -/
abbrev Ended := Dialogue.Outcome (Except Failure PathArgument) Filesystem

/-- A resolution of the path on its own. -/
def alone (limits : Limits) (env : Environment) (mode : ExistenceMode) (fs : Filesystem)
    (path : Text) : Ended :=
  (resolve limits env (.string path) (.mode mode)).run Filesystem.answer fs

/-- A path has an answer or an error of the resolution, and nothing else. -/
inductive Ended.IsOf : Ended → Dialogue.Outcome (Except Failure Text) Filesystem → Prop
  | canonical (t : Text) (fs : Filesystem) (told : List LogEntry) :
      IsOf ⟨.ok (.text t), fs, told⟩ ⟨.ok t, fs, told⟩
  | failed (e : ResolutionError) (fs : Filesystem) (told : List LogEntry) :
      IsOf ⟨.error (.resolution e), fs, told⟩ ⟨.error (.resolution e), fs, told⟩

theorem ordinaryFaults : OrdinaryFaults Filesystem.answer := by
  intro fs question fault h
  cases fs with
  | memory s => exact Store.ordinaryFaults s question fault h
  | disk s => exact Disk.ordinaryFaults s question fault h

/-- A resolution of a text is one of an argument that is a text. -/
theorem alone_isOf (limits : Limits) (env : Environment) (mode : ExistenceMode)
    (fs : Filesystem) (path : Text) :
    (alone limits env mode fs path).IsOf
      ((canonicalPath limits mode path).run Filesystem.answer fs) := by
  have halone := Dialogue.run_bind Filesystem.answer (canonicalPath limits mode path)
    (fun answer => .done (answer.map PathArgument.text)) fs
  have hreports := canonicalPathShown_reports ordinaryFaults fs (quoted path) limits mode path
  show Ended.IsOf (Dialogue.run _ (Dialogue.bind (canonicalPath limits mode path) _) fs) _
  rw [halone]
  simp only [Dialogue.run_done, List.append_nil]
  generalize hran : (canonicalPath limits mode path).run Filesystem.answer fs = ran
  obtain ⟨value, after, told⟩ := ran
  cases value with
  | ok canonical => exact .canonical canonical after told
  | error failure =>
      have hvalue : ((canonicalPathShown (quoted path) limits mode path).run
          Filesystem.answer fs).value = .error failure := congrArg (·.value) hran
      obtain ⟨e, rfl⟩ := hreports.2 failure hvalue
      exact .failed e after told

theorem Ended.IsOf.isSome_outputOf {ended : Ended}
    {ran : Dialogue.Outcome (Except Failure Text) Filesystem} (h : ended.IsOf ran) :
    (outputOf ended.value).isSome = (errorOf ended.value).isNone := by
  cases h <;> rfl

-- =============================================================== sweeps

/-- What was told of a path, if it is asked for. -/
def logOf (i : Invocation) (ended : Ended) : List Message :=
  if i.verbose then ended.told.map .logged else []

/-- What is written about a path to the error stream. -/
def messagesOf (i : Invocation) (path : Text) (ended : Ended) : List Message :=
  logOf i ended ++ if i.quiet then []
    else (errorOf ended.value).toList.map fun e => .line (failureText path e)

/-- What a sweep writes about paths that come to this, if the output takes all
there is to print. -/
def swept (i : Invocation) (written : Text → Text) (each : Text → Ended) (paths : List Text) :
    Stretch where
  results := (paths.filterMap fun path => outputOf (each path).value).map written
  messages := paths.flatMap fun path => messagesOf i path (each path)
  hasFailed := paths.any fun path => (errorOf (each path).value).isSome
  ended := none

/-- A sweep over one path. -/
theorem about_eq_swept (hlib : lib.Documented isPicture) {each : Text → Ended}
    {ran : Dialogue.Outcome (Except Failure Text) Filesystem} (hran : (each path).IsOf ran)
    (hpath : IsMentionable isPicture path)
    (htaken : ∀ t, outputOf (each path).value = some t → lib.echo t = .ok (written t)) :
    lib.about i path ran.value ran.told = swept i written each [path] := by
  have hprint : ∀ e, lib.print (failureText path e) = .ok (failureText path e) := fun e =>
    hlib.print (hpath.failureText e).1 (hpath.failureText e).2
  unfold Libraries.about swept messagesOf logOf
  simp only [List.flatMap_singleton, List.filterMap_cons, List.filterMap_nil, List.any_cons,
    List.any_nil, Bool.or_false]
  generalize each path = ended at hran htaken
  cases hran with
  | canonical t fs told =>
      have hecho : lib.echo t = .ok (written t) := htaken t rfl
      simp [Libraries.tell, hecho, outputOf, errorOf]
  | failed e fs told =>
      have hprinted : lib.print (complaint (path ++ text ": " ++ Errno.message e.code))
          = .ok (failureText path e) := hprint e
      cases hquiet : i.quiet with
      | true => simp [Libraries.tell, outputOf, errorOf]
      | false =>
          simp only [Libraries.tell, hprinted, outputOf, errorOf, Bool.false_eq_true, if_false,
            Option.toList_some, Option.isSome_some, List.map_cons, List.map_nil]

/-- A stretch that does not end the run, and what is written behind it. -/
theorem append_of_ended_none {a b : Stretch} (h : a.ended = none) :
    a.append b = ⟨a.results ++ b.results, a.messages ++ b.messages, a.hasFailed || b.hasFailed,
      b.ended⟩ := by
  rw [Stretch.append, h]

theorem swept_cons (each : Text → Ended) (paths : List Text) (s : Stretch) :
    (swept i written each (path :: paths)).append s
      = (swept i written each [path]).append ((swept i written each paths).append s) := by
  rw [append_of_ended_none rfl, append_of_ended_none rfl, append_of_ended_none rfl]
  simp only [swept, List.flatMap_cons, List.flatMap_nil, List.append_nil, List.any_cons,
    List.any_nil, Bool.or_false, Bool.or_assoc, List.append_assoc]
  rw [← List.singleton_append, List.filterMap_append, List.map_append, List.append_assoc]

/-- A sweep writes about the paths before a place what they come to on their own,
and goes on from there on a filesystem that is like the first one. -/
theorem resolveAll_append (hlib : lib.Documented isPicture) (limits : Limits) (env : Environment)
    (mode : ExistenceMode) {before : List Text} (rest : List Text)
    (hbefore : ∀ path ∈ before, IsMentionable isPicture path) (hs : Filesystem.Alike [] fs start)
    (htaken : ∀ path ∈ before, ∀ t,
      outputOf (alone limits env mode start path).value = some t → lib.echo t = .ok (written t)) :
    ∃ after, Filesystem.Alike [] after start
      ∧ (resolveAll lib Filesystem.answer i limits mode (before ++ rest) fs).1
        = (swept i written (alone limits env mode start) before).append
          (resolveAll lib Filesystem.answer i limits mode rest after).1 := by
  induction before generalizing fs with
  | nil => exact ⟨fs, hs, rfl⟩
  | cons path before ih =>
      obtain ⟨hpath, hbefore⟩ := List.forall_mem_cons.mp hbefore
      obtain ⟨htakenPath, htaken⟩ := List.forall_mem_cons.mp htaken
      obtain ⟨hvalue, htold, hafter⟩ := hs.canonicalPath limits mode path
      obtain ⟨after, halike, hrest⟩ := ih hbefore hafter htaken
      have hfirst := about_eq_swept (i := i) hlib
        (alone_isOf limits env mode start path) hpath htakenPath
      refine ⟨after, halike, ?_⟩
      rw [swept_cons, ← hrest, ← hfirst]
      simp only [List.cons_append, resolveAll, hvalue, htold]
      rw [hfirst]
      rfl

/-- A sweep ends at a path whose answer the output does not take. -/
theorem resolveAll_refused (limits : Limits) (env : Environment) (mode : ExistenceMode)
    (rest : List Text) (hs : Filesystem.Alike [] fs start) {t : Text} {fault : Fault}
    (houtput : outputOf (alone limits env mode start path).value = some t)
    (hrefused : lib.echo t = .error fault) :
    (resolveAll lib Filesystem.answer i limits mode (path :: rest) fs).1
      = ⟨[], logOf i (alone limits env mode start path), false, some (.fault fault)⟩ := by
  obtain ⟨hvalue, htold, -⟩ := hs.canonicalPath limits mode path
  have hran := alone_isOf limits env mode start path
  simp only [resolveAll, hvalue, htold]
  generalize alone limits env mode start path = ended at hran houtput ⊢
  generalize (canonicalPath limits mode path).run Filesystem.answer start = ran at hran ⊢
  cases hran with
  | canonical c after told =>
      obtain rfl : c = t := Option.some.inj houtput
      simp only [Libraries.about, Libraries.tell, hrefused, Option.isSome_some, if_true,
        List.append_nil, logOf]
  | failed e after told => cases houtput

-- ================================================================= runs

theorem run_of_parse {arguments lines : List Text} {loaded : Environment}
    (hparse : lib.parse arguments = .ok i) (hload : lib.load env = (lines, .ok loaded)) :
    run lib Filesystem.answer arguments env fs
      = ((execute lib Filesystem.answer i loaded fs).1.after lines,
        (execute lib Filesystem.answer i loaded fs).2) := by
  simp only [run, hparse, hload]

theorem execute_of_configures {swept : Stretch} (h : Configures i env limits mode)
    (hswept : (resolveAll lib Filesystem.answer i limits mode i.paths fs).1 = swept) :
    (execute lib Filesystem.answer i env fs).1 = lib.report swept := by
  simp only [execute, h.configure_eq, hswept]

/-- If the output takes every answer, a run writes about all paths. -/
theorem execute_of_taken (hlib : lib.Documented isPicture) (h : Configures i env limits mode)
    (hmentionable : ∀ path ∈ i.paths, IsMentionable isPicture path) (hfs : fs.NumbersHandles)
    (htaken : ∀ path ∈ i.paths, ∀ t,
      outputOf (alone limits env mode fs path).value = some t → lib.echo t = .ok (written t)) :
    (execute lib Filesystem.answer i env fs).1
      = lib.report (swept i written (alone limits env mode fs) i.paths) := by
  obtain ⟨after, -, hsweep⟩ :=
    resolveAll_append (i := i) hlib limits env mode [] hmentionable hfs.alike htaken
  rw [List.append_nil] at hsweep
  rw [execute_of_configures h hsweep, append_of_ended_none rfl]
  simp only [resolveAll, Stretch.nothing, List.append_nil, Bool.or_false]
  rfl

/-- If the output refuses an answer, a run writes about the paths before it, and what
the failure is worth. -/
theorem execute_of_refused (hlib : lib.Documented isPicture) (h : Configures i env limits mode)
    (hmentionable : ∀ path ∈ i.paths, IsMentionable isPicture path) (hfs : fs.NumbersHandles)
    {before rest : List Text} (hsplit : i.paths = before ++ path :: rest)
    (htaken : ∀ path ∈ before, ∀ t,
      outputOf (alone limits env mode fs path).value = some t → lib.echo t = .ok (written t))
    {t : Text} {fault : Fault} (houtput : outputOf (alone limits env mode fs path).value = some t)
    (hrefused : lib.echo t = .error fault) :
    (execute lib Filesystem.answer i env fs).1
      = ⟨(lib.abort (.fault fault)).1,
        (before.filterMap fun path => outputOf (alone limits env mode fs path).value).map written,
        (before.flatMap fun path => messagesOf i path (alone limits env mode fs path))
          ++ logOf i (alone limits env mode fs path)
          ++ (lib.abort (.fault fault)).2.map .line⟩ := by
  have hbefore : ∀ path ∈ before, IsMentionable isPicture path :=
    fun p hmem => hmentionable p (hsplit ▸ List.mem_append_left _ hmem)
  obtain ⟨after, halike, hsweep⟩ :=
    resolveAll_append (i := i) hlib limits env mode (path :: rest) hbefore hfs.alike htaken
  rw [resolveAll_refused limits env mode rest halike houtput hrefused, ← hsplit] at hsweep
  rw [execute_of_configures h hsweep, append_of_ended_none rfl]
  simp only [Libraries.report, List.append_nil]
  rfl

/-- A configuration that is not valid ends a run before it asks anything. -/
theorem execute_of_not_configured (hlib : lib.Documented isPicture) (h : ¬ IsConfigured i env) :
    ∃ (e : ConfigurationError) (line : Text), lib.print (complaint e.message) = .ok line
      ∧ execute lib Filesystem.answer i env fs = (⟨.ok 2, [], [.line line]⟩, fs) := by
  rcases configure_cases i env with ⟨limits, mode, -, hvalid⟩ | ⟨e, herror, -⟩
  · exact absurd hvalid.isConfigured h
  · obtain ⟨line, hline⟩ := hlib.printed (complaint e.message)
    refine ⟨e, line, hline, ?_⟩
    simp only [execute, herror, Libraries.refusal, hline]

/-- A run whose configuration is valid prints, in order, what each of its paths
resolves to on its own, as the output carries it; it reports each path that fails,
and its exit code says whether one did. It ends early only if the output does not
take what there is to print. Any other run ends with the exit code 2 before it asks
the filesystem anything. What is valid is decided by the variables that are consulted
alone. -/
theorem run_resolves_each_path (hlib : lib.Documented isPicture) {arguments : List Text}
    {i : Invocation} (hspelled : Spells arguments i) (hpaths : i.paths ≠ [])
    (hmentionable : ∀ path ∈ i.paths, IsMentionable isPicture path) {env loaded : Environment}
    {lines : List Text} (hload : lib.load env = (lines, .ok loaded)) {fs : Filesystem}
    (hfs : fs.NumbersHandles) :
    let ran := run lib Filesystem.answer arguments env fs
    (IsConfigured i loaded ↔ ∃ limits mode, Configures i loaded limits mode)
      ∧ (∀ limits mode, Configures i loaded limits mode →
          let each := alone limits loaded mode fs
          let outputs (paths : List Text) := paths.filterMap fun path => outputOf (each path).value
          let messages (paths : List Text) :=
            paths.flatMap fun path => messagesOf i path (each path)
          let exitCode :=
            if i.paths.any fun path => (errorOf (each path).value).isSome then 1 else 0
          (∀ path ∈ i.paths,
              (outputOf (each path).value).isSome = (errorOf (each path).value).isNone)
            ∧ ((∀ t ∈ outputs i.paths, IsCarried t) →
                ran.1 = Report.after lines ⟨.ok exitCode, outputs i.paths, messages i.paths⟩)
            ∧ (∀ written : Text → Text,
                (∀ t ∈ outputs i.paths, lib.echo t = .ok (written t)) →
                ran.1 = Report.after lines
                  ⟨.ok exitCode, (outputs i.paths).map written, messages i.paths⟩)
            ∧ ∀ (written : Text → Text) before path rest t fault, i.paths = before ++ path :: rest →
                (∀ t ∈ outputs before, lib.echo t = .ok (written t)) →
                outputOf (each path).value = some t → lib.echo t = .error fault →
                ran.1 = Report.after lines
                  ⟨(lib.abort (.fault fault)).1, (outputs before).map written,
                    messages before ++ logOf i (each path)
                      ++ (lib.abort (.fault fault)).2.map .line⟩)
      ∧ (¬ IsConfigured i loaded → ∃ (e : ConfigurationError) (line : Text),
          lib.print (complaint e.message) = .ok line
            ∧ ran = (Report.after lines ⟨.ok 2, [], [.line line]⟩, fs))
      ∧ ∀ env' loaded', lib.load env' = (lines, .ok loaded') → SameConsulted i loaded loaded' →
          run lib Filesystem.answer arguments env' fs = ran := by
  intro ran
  have hparse := hlib.parse hspelled hpaths
  have hran : ran = _ := run_of_parse hparse hload
  refine ⟨isConfigured_iff, fun limits mode h => ?_, fun hinvalid => ?_,
    fun env' loaded' hload' hsame => ?_⟩
  · intro each outputs messages exitCode
    have heach {paths : List Text} {written : Text → Text}
        (htaken : ∀ t ∈ outputs paths, lib.echo t = .ok (written t)) :
        ∀ path ∈ paths, ∀ t, outputOf (each path).value = some t → lib.echo t = .ok (written t) :=
      fun path hmem t ht => htaken t (List.mem_filterMap.mpr ⟨path, hmem, ht⟩)
    have hall (written : Text → Text)
        (htaken : ∀ t ∈ outputs i.paths, lib.echo t = .ok (written t)) :
        ran.1 = Report.after lines
          ⟨.ok exitCode, (outputs i.paths).map written, messages i.paths⟩ := by
      rw [hran, execute_of_taken hlib h hmentionable hfs (heach htaken)]
      rfl
    refine ⟨fun path _ => ?_, fun hcarried => ?_, hall, ?_⟩
    · exact (alone_isOf limits loaded mode fs path).isSome_outputOf
    · rw [hall id fun t ht => hlib.echo (hcarried t ht), List.map_id]
    · intro written before path rest t fault hsplit htaken houtput hrefused
      rw [hran, execute_of_refused hlib h hmentionable hfs hsplit (heach htaken) houtput hrefused]
  · obtain ⟨e, line, hline, hexecuted⟩ := execute_of_not_configured hlib hinvalid
    exact ⟨e, line, hline, by rw [hran, hexecuted]⟩
  · rw [hran, run_of_parse hparse hload']
    simp only [execute, hsame.configure]

/-- One path of three fails, and the variable beside the option says nothing. -/
theorem run_resolves_each_path_past_failure :
    let arguments := [text "--loop-budget", text "7", text "/l/f", text "/x/y", text "/d"]
    let env := Environment.empty.set loopBudgetVariable (text "many")
    (run (.standard false (.ok none)) Filesystem.answer arguments env (.memory .sample)).1
      = ⟨.ok 1, [text "/d/f", text "/d"],
        [.line (text "canonpath: /x/y: No such file or directory")]⟩ := by
  intro arguments env
  let i : Invocation := ⟨[text "/l/f", text "/x/y", text "/d"], false, false, false, some 7⟩
  have hcount : IsCount (text "7") 7 :=
    ⟨⟨[7], .last ⟨by decide, 0x30, by decide, rfl⟩, by decide, by simp⟩,
      List.forall_mem_singleton.mpr (by decide), by decide⟩
  have hspelled : Spells arguments i :=
    .loopBudget hcount (by decide) (.path (.inl (by decide)) (.path (.inl (by decide))
      (.path (.inl (by decide)) .nothing)))
  have hconfigures : Configures i env ⟨7, 4096, by decide, by decide⟩ .missingOk :=
    ⟨⟨by decide, rfl⟩, rfl, .default rfl⟩
  have hmentionable : ∀ path ∈ i.paths, IsMentionable (fun _ => true) path := by decide
  have hload : (Libraries.standard false (.ok none)).load env = ([], .ok env) := rfl
  have hhandles : (Filesystem.memory .sample).NumbersHandles :=
    Store.sample_reachable.wellFormed.handles
  obtain ⟨-, hvalid, -⟩ := run_resolves_each_path (standard_documented false (.ok none) _) hspelled
    (List.cons_ne_nil _ _) hmentionable hload hhandles
  obtain ⟨-, hprinted, -⟩ := hvalid _ _ hconfigures
  refine hprinted ?_
  have houtputs : (i.paths.filterMap fun path =>
      outputOf (alone ⟨7, 4096, by decide, by decide⟩ env .missingOk (.memory .sample) path).value)
      = [text "/d/f", text "/d"] := rfl
  have hcarried : ∀ t ∈ [text "/d/f", text "/d"], IsCarried t :=
    List.forall_mem_cons.mpr ⟨by decide, List.forall_mem_singleton.mpr (by decide)⟩
  intro t ht
  refine hcarried t ?_
  rw [← houtputs]
  exact ht

/-- The output does not take the second answer, and the third path is not looked at. -/
example :
    let name : Text := [0x2F, 0xDC80]
    let s := ((Store.empty (text "/")).makeDirectory name false false).2.makeLink name (text "/l")
    (run (.standard false (.ok none)) Filesystem.answer [text "/", text "/l", text "/x/y"] .empty
        (.memory s.2)).1
      = ⟨.error (.fault (.refused (.unencodable ⟨0xDC80, 1, 2⟩))), [text "/"], []⟩ := rfl

/-- A directory whose name holds an escape, and a link to it. -/
def coloured : Store :=
  ((Store.empty (text "/")).makeDirectory (text "/\x1b[1mx") false false).2.makeLink
    (text "/\x1b[1mx") (text "/l") |>.2

/-- The path that leads there can be mentioned, but what is printed for it is not what
it resolves to. -/
theorem colouring_is_cut_out :
    (∀ isPicture, (Libraries.standard false (.ok none)).Documented isPicture
        ∧ IsMentionable isPicture (text "/l"))
      ∧ outputOf (alone .standard .empty .missingOk (.memory coloured) (text "/l")).value
        = some (text "/\x1b[1mx")
      ∧ (run (.standard false (.ok none)) Filesystem.answer [text "/l"] .empty
          (.memory coloured)).1 = ⟨.ok 0, [text "/x"], []⟩ :=
  ⟨fun isPicture => ⟨standard_documented _ _ isPicture, by decide, rfl⟩, rfl, rfl⟩

end PathResolution.CommandLine
