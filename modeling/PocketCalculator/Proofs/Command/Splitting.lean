import PocketCalculator.Proofs.Command.Process

/-!
# Splitting a session

A session may be split: what is typed in one process may as well be typed in two, or line by line.
The state goes on from where it was saved, and the history numbers its entries in the same way.
-/

namespace PocketCalculator

namespace Program

open Session

variable {places : Places} {settings : Settings} {o : Options} {disk : Disk} {p q : Path}
  {a b : Text} {as bs : List Key} {t₁ t₂ : Int}

/-- The second of two processes goes on from what the first one leaves. -/
theorem process_keys_keys (h : Session.Keeps places settings o disk p q)
    (ha : Script.read a = .ok as) (hb : Script.read b = .ok bs)
    (hcount : ((restored (disk.read p)).pressAll settings.separators as).1.openCount ≤
      Snapshot.maxCount)
    (hlength : ((as ++ bs).length : Int) ≤ Entry.maxInt) (ht₁ : Entry.FitsTime t₁)
    (ht₂ : Entry.FitsTime t₂) :
    let first := process places disk t₁ [] (keysArguments o a)
    let second := process places first.2.disk t₂ [] (keysArguments o b)
    let pressed := (restored (disk.read p)).pressAll settings.separators as
    let pressed' := pressed.1.pressAll settings.separators bs
    first.1 = 0 ∧ Leaves disk (o.config <|> places.configFile) p q pressed'.1
      (recordedIn settings.recording
        (recordedIn settings.recording [] (pressed.2.map (entryAt t₁)))
        (pressed'.2.map (entryAt t₂))) second := by
  intro first second pressed pressed'
  rw [List.length_append] at hlength
  have hstart := continues_start h.apart
  have hsparing := (Settings.accepted_of_load h.load_eq).sparesParens
  have hfirst : Leaves disk _ p q pressed.1
      (recordedIn settings.recording [] (pressed.2.map (entryAt t₁))) first :=
    process_keys h hstart ha ht₁ (by rw [List.length_nil]; omega)
  have hrestored : restored (first.2.disk.read p) = pressed.1 :=
    hfirst.restored_eq ((consistent_restored _).pressAll hsparing as) hcount
  have hle : pressed.2.length ≤ as.length := State.length_pressAll_le _ _ _
  obtain ⟨hnumbered, hlength'⟩ := numbered_recordedIn settings.recording Ledger.numbered_nil
    (map_entryAt_fits pressed.2 ht₁)
  rw [List.length_map, List.length_nil] at hlength'
  have hsecond := process_keys h (hfirst.continues h.apart hnumbered) hb ht₂ (by omega)
  rw [hrestored] at hsecond
  exact ⟨hfirst.code_eq, hsecond⟩

/-- Scripts may be typed line by line. -/
theorem process_lines (h : Session.Keeps places settings o disk p q)
    (ha : Script.read a = .ok as) (hb : Script.read b = .ok bs) (hlines : '\n' ∉ a ∧ '\n' ∉ b)
    (hlength : ((as ++ bs).length : Int) ≤ Entry.maxInt) {time : Int}
    (htime : Entry.FitsTime time) :
    let typed := process places disk time (unlines [a, b]) (o.arguments ++ ["repl".toList])
    let pressed := (restored (disk.read p)).pressAll settings.separators (as ++ bs)
    Leaves disk (o.config <|> places.configFile) p q pressed.1
      (recordedIn settings.recording [] (pressed.2.map (entryAt time))) typed := by
  have hparts : ∀ t ∈ [a, b], '\n' ∉ t ∧ ∃ ks, Script.read t = .ok ks := by
    simp [hlines, ha, hb]
  obtain ⟨hscripts, hkeys⟩ := Script.read_lines hparts
  have hpressed : (lines (unlines [a, b])).flatMap Script.keys = as ++ bs := by
    rw [hkeys, List.flatMap_cons, List.flatMap_singleton, Script.keys_eq_of_read ha,
      Script.keys_eq_of_read hb]
  exact process_repl h (continues_start h.apart) hscripts hpressed htime
    (by rw [List.length_nil, Nat.zero_add]; exact hlength)

/-- What is found at the path of a history: a file, unless the history is empty. -/
def historyFile (l : Ledger) : Except FileError ByteArray :=
  Disk.found l.file?

/-- Two scripts that are run in two processes, one after the other, leave the state and the history
of one process that runs both, except for times, and end with the same two lines; so do two lines
that are typed into one process. The configuration is accepted, there is no history at first, all
files can be written, and no number outgrows its file. -/
theorem keys_split (h : Session.Keeps places settings o disk p q)
    (ha : Script.read a = .ok as) (hb : Script.read b = .ok bs) (hlines : '\n' ∉ a ∧ '\n' ∉ b)
    (hcount : ((restored (disk.read p)).pressAll settings.separators as).1.openCount ≤
      Snapshot.maxCount)
    (hlength : ((as ++ bs).length : Int) ≤ Entry.maxInt) {t₁ t₂ t₃ t₄ : Int}
    (htimes : ∀ time ∈ [t₁, t₂, t₃, t₄], Entry.FitsTime time) :
    let first := process places disk t₁ [] (keysArguments o a)
    let second := process places first.2.disk t₂ [] (keysArguments o b)
    let whole := process places disk t₃ [] (keysArguments o (a ++ b))
    let typed := process places disk t₄ (unlines [a, b]) (o.arguments ++ ["repl".toList])
    let final := ((restored (disk.read p)).pressAll settings.separators (as ++ bs)).1
    first.1 = 0 ∧
      (∀ ran ∈ [second, whole, typed], ran.1 = 0 ∧ display final <:+ ran.2.output ∧
        ran.2.disk.read p = .ok (bytesOfText final.save)) ∧
      ∃ l₁ l₂ l₃ : Ledger, second.2.disk.read q = historyFile l₁ ∧
        whole.2.disk.read q = historyFile l₂ ∧ typed.2.disk.read q = historyFile l₃ ∧
        l₁.untimed = l₂.untimed ∧ l₃.untimed = l₂.untimed := by
  intro first second whole typed final
  obtain ⟨hcode, hsecond⟩ := process_keys_keys h ha hb hcount hlength (htimes t₁ (by simp))
    (htimes t₂ (by simp))
  have hwhole := process_keys h (continues_start h.apart) (Script.read_append ha hb)
    (htimes t₃ (by simp)) (by rw [List.length_nil, Nat.zero_add]; exact hlength)
  have htyped := process_lines h ha hb hlines hlength (htimes t₄ (by simp))
  have happend := State.pressAll_append settings.separators (restored (disk.read p)) as bs
  have hfinal : final = (((restored (disk.read p)).pressAll settings.separators as).1.pressAll
      settings.separators bs).1 := by
    show (State.pressAll _ _ _).1 = _
    rw [happend]
  dsimp only at hsecond hwhole htyped
  rw [← hfinal] at hsecond
  refine ⟨hcode, ?_, _, _, _, hsecond.stage.read_second h.apart,
    hwhole.stage.read_second h.apart, htyped.stage.read_second h.apart, ?_, ?_⟩
  · exact List.forall_mem_cons.2 ⟨⟨hsecond.code_eq, hsecond.output, hsecond.stage.read_first⟩,
      List.forall_mem_cons.2 ⟨⟨hwhole.code_eq, hwhole.output, hwhole.stage.read_first⟩,
        List.forall_mem_singleton.2 ⟨htyped.code_eq, htyped.output, htyped.stage.read_first⟩⟩⟩
  · rw [untimed_recordedIn, untimed_recordedIn, untimed_recordedIn, happend, List.map_append,
      recordedIn_append]
  · rw [untimed_recordedIn, untimed_recordedIn]

/-- A session with decimal commas is split inside a number, and its formula is evaluated in the
second process. -/
theorem keys_split_in_number :
    let places : Places := ⟨some "/c".toList, some "/d".toList, none⟩
    let config := bytesOfText "[format]\ndecimal_separator=','\ngrouping_separator='.'".toList
    let disk : Disk :=
      ⟨[(["c".toList], .folder), (["c".toList, "padcalc".toList], .folder),
        (["c".toList, "padcalc".toList, "config.toml".toList], .file config)], []⟩
    let first := process places disk 0 [] (keysArguments {} "-1.".toList)
    let second := process places first.2.disk 1 [] (keysArguments {} "5*2=".toList)
    let whole := process places disk 2 [] (keysArguments {} "-1.5*2=".toList)
    second.2.disk.read "/d/padcalc/state.json".toList =
      whole.2.disk.read "/d/padcalc/state.json".toList := by
  intro places config disk first second whole
  have hdocument :
      (Toml.read? "[format]\ndecimal_separator=','\ngrouping_separator='.'".toList).bind
        Settings.ofDocument? = some { separators := ⟨',', '.'⟩ } := by decide +kernel
  have hcheck : Separators.check ⟨',', '.'⟩ = .ok () := by decide +kernel
  have hread : Settings.read "/c/padcalc/config.toml".toList config =
      .ok { separators := ⟨',', '.'⟩ } := by
    rw [Settings.read, textOfBytes?_bytesOfText]
    dsimp only
    rw [hdocument]
    dsimp only
    rw [hcheck]
  have hne (loc other : Location) (h : loc ≠ other) :
      (.ok loc : Except FileError Location) ≠ .ok other := fun heq => h (Except.ok.inj heq)
  have hapart : disk.Apart places.configFile "/d/padcalc/state.json".toList
      "/d/padcalc/history.json".toList := by
    intro c₁ c₂
    refine ⟨_, _, rfl, rfl, rfl, ?_, ?_, ?_⟩
    · exact hne ["d".toList, "padcalc".toList, "state.json".toList]
        ["d".toList, "padcalc".toList, "history.json".toList] (by decide)
    · rintro path ⟨⟩
      exact ⟨rfl, rfl⟩
    · rintro path ⟨⟩
      exact ⟨hne ["c".toList, "padcalc".toList, "config.toml".toList]
          ["d".toList, "padcalc".toList, "state.json".toList] (by decide),
        hne ["c".toList, "padcalc".toList, "config.toml".toList]
          ["d".toList, "padcalc".toList, "history.json".toList] (by decide)⟩
  have h : Session.Keeps places { separators := ⟨',', '.'⟩ } {} disk
      "/d/padcalc/state.json".toList "/d/padcalc/history.json".toList :=
    ⟨⟨nofun, nofun⟩, hread, rfl, rfl, rfl, rfl, hapart⟩
  have ha : Script.read "-1.".toList = .ok [.operator .minus, .digit 1, .point] := rfl
  have hb : Script.read "5*2=".toList = .ok [.digit 5, .operator .times, .digit 2, .equals] := rfl
  have htimes : ∀ time ∈ [0, 1, 2, 3], Entry.FitsTime time := by decide
  obtain ⟨-, hran, -⟩ := keys_split h ha hb (by decide) (by decide +kernel) (by decide) htimes
  have hsecond := (hran second List.mem_cons_self).2.2
  have hwhole := (hran whole (List.mem_cons_of_mem _ List.mem_cons_self)).2.2
  exact hsecond.trans hwhole.symm

end Program

end PocketCalculator
