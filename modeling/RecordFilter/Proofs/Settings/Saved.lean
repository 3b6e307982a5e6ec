import Mathlib
import RecordFilter.Settings.Load
import RecordFilter.Proofs.Directory
import RecordFilter.Proofs.Text.Pieces
import RecordFilter.Proofs.Toml.Reading

/-!
# Saved settings — what has been saved is loaded again

The text of settings is read line by line: a log level between whatever quotes it needs, the header of each of the
two tables, and their keys. Every setting but an absent log level is written, so putting the file over the usual
settings gives the ones that were saved. A file without an extension is written all the same, and then refused for
its name.

* `Settings.savedEntries`: the table that the text of settings spells.
* `Settings.parse?_toToml`, `Settings.ofToml?_toToml`: the text is read back.
* `Settings.merge_usual`: a file over the usual settings.
* `Settings.exists_save_iff`: when settings can be saved.
* `Settings.ofFile_of_save`: a saved file is loaded.
-/

namespace RecordFilter.Settings

open Number Toml

/-! ## The text -/

/-- The entry of a log level, if one is set. -/
def levelEntries : Option String → Toml.Entries
  | some level => [("log_level", .string level)]
  | none => []

/-- The table that the text of settings spells. -/
def savedEntries (s : Settings) : Toml.Entries :=
  levelEntries s.logLevel ++
    [("parser", .table .header [("max_depth", .integer s.maxDepth.toNat)]),
      ("output", .table .header [("url_encode", .boolean s.urlEncode), ("pretty", .boolean s.pretty)])]

/-- The lines of a log level, if one is set. -/
def levelChars : Option String → List Char
  | some level => line "log_level" (quotedChars level) ++ ['\n']
  | none => []

theorem takes_line {key : String} {value : List Char} {v : Toml} {entries entries' : Toml.Entries}
    {place : List String} (hkey : IsName key) (hvalue : IsValue value v)
    (hassign : assign? place [key] v entries = some entries') :
    Takes (line key value) (.atLine entries place) (.atLine entries' place) :=
  .entry hkey hvalue hassign

theorem isValue_boolChars (b : Bool) : IsValue (boolChars b) (.boolean b) := by
  have hbare : (boolChars b).all isBare = true := by cases b <;> decide +kernel
  refine isValue_of_plain? ?_ (List.all_eq_true.mp hbare) ?_
  · cases b <;> decide +kernel
  · cases b <;> simp [boolChars, plain?]

theorem takes_level (level : Option String) :
    Takes (levelChars level) .start (.atLine (levelEntries level) []) := by
  cases level with
  | none => exact ⟨[], fun _ _ h => h, rfl⟩
  | some level =>
    have hentry : Takes (line "log_level" (quotedChars level)) (.atLine [] [])
        (.atLine [("log_level", .string level)] []) :=
      takes_line (by decide +kernel) (isValue_quotedChars level) (by simp [assign?, alter?])
    exact hentry.append (.empty _ _)

/-- The table `parser`, behind the log level. -/
theorem takes_parserTable (level : Option String) {n : Nat} (hn : n < 2 ^ 128) :
    Takes ('[' :: "parser".toList ++ [']', '\n'] ++ line "max_depth" (naturalChars n))
      (.atLine (levelEntries level) [])
      (.atLine (levelEntries level ++ [("parser", .table .header [("max_depth", .integer n)])]) ["parser"]) := by
  have hheader : Takes ('[' :: "parser".toList ++ [']', '\n']) (.atLine (levelEntries level) [])
      (.atLine (levelEntries level ++ [("parser", .table .header [])]) ["parser"]) := by
    refine .header (by decide +kernel) ?_
    cases level <;> simp [levelEntries, openTable?, alter?, List.lookup]
  refine hheader.append (takes_line (by decide +kernel) (isValue_naturalChars hn) ?_)
  cases level <;> simp [levelEntries, assign?, alter?, setEntry, List.lookup]

/-- The table `output`, behind the other one. -/
theorem takes_outputTable (level : Option String) (parser : Toml) (encode pretty : Bool) :
    Takes ('[' :: "output".toList ++ [']', '\n'] ++
        (line "url_encode" (boolChars encode) ++ line "pretty" (boolChars pretty)))
      (.atLine (levelEntries level ++ [("parser", parser)]) ["parser"])
      (.atLine (levelEntries level ++ [("parser", parser),
        ("output", .table .header [("url_encode", .boolean encode), ("pretty", .boolean pretty)])]) ["output"]) := by
  have hheader : Takes ('[' :: "output".toList ++ [']', '\n'])
      (.atLine (levelEntries level ++ [("parser", parser)]) ["parser"])
      (.atLine (levelEntries level ++ [("parser", parser), ("output", .table .header [])]) ["output"]) := by
    refine .header (by decide +kernel) ?_
    cases level <;> simp [levelEntries, openTable?, alter?, List.lookup]
  have hencode : Takes (line "url_encode" (boolChars encode))
      (.atLine (levelEntries level ++ [("parser", parser), ("output", .table .header [])]) ["output"])
      (.atLine (levelEntries level ++ [("parser", parser),
        ("output", .table .header [("url_encode", .boolean encode)])]) ["output"]) := by
    refine takes_line (by decide +kernel) (isValue_boolChars encode) ?_
    cases level <;> simp [levelEntries, assign?, alter?, setEntry, List.lookup]
  refine hheader.append (hencode.append (takes_line (by decide +kernel) (isValue_boolChars pretty) ?_))
  cases level <;> simp [levelEntries, assign?, alter?, setEntry, List.lookup]

theorem tomlChars_eq (s : Settings) : s.tomlChars =
    levelChars s.logLevel ++
      ('[' :: "parser".toList ++ [']', '\n'] ++ line "max_depth" (naturalChars s.maxDepth.toNat) ++
        (['\n'] ++ ('[' :: "output".toList ++ [']', '\n'] ++
          (line "url_encode" (boolChars s.urlEncode) ++ line "pretty" (boolChars s.pretty))))) := by
  have hlevel : s.tomlChars =
      levelChars s.logLevel ++ "[parser]\n".toList ++ line "max_depth" (naturalChars s.maxDepth.toNat) ++
        "\n[output]\n".toList ++ line "url_encode" (boolChars s.urlEncode) ++
        line "pretty" (boolChars s.pretty) := by
    unfold tomlChars levelChars
    cases s.logLevel <;> rfl
  have hparser : "[parser]\n".toList = '[' :: "parser".toList ++ [']', '\n'] := by decide +kernel
  have houtput : "\n[output]\n".toList = '\n' :: '[' :: "output".toList ++ [']', '\n'] := by decide +kernel
  rw [hlevel, hparser, houtput]
  simp only [List.append_assoc, List.cons_append, List.nil_append]

/-- **The text of settings spells their table.** -/
theorem parse?_toToml (s : Settings) : Toml.parse? s.toToml = some s.savedEntries := by
  have hdepth : s.maxDepth.toNat < 2 ^ 128 := lt_trans s.maxDepth.toNat_lt (by norm_num)
  have htakes : Takes s.tomlChars .start (.atLine s.savedEntries ["output"]) := by
    rw [tomlChars_eq]
    exact (takes_level _).append ((takes_parserTable _ hdepth).append
      ((Takes.empty _ _).append (takes_outputTable _ _ _ _)))
  exact parse?_of_takes htakes

theorem depthOf?_toNat (n : UInt64) : depthOf? (.integer n.toNat) = some n := by
  rw [depthOf?, if_pos]
  · simp
  · exact ⟨Int.natCast_nonneg _, by exact_mod_cast n.toNat_lt⟩

/-- Entries in which every key of the two tables has a value. -/
theorem ofEntries?_of_part? {entries : Toml.Entries} {level : Option String} {depth : UInt64} {encode pretty : Bool}
    {v w x : Toml} (hlevel : readOr (fun v => (textOf? v).map some) none (entries.lookup "log_level") = some level)
    (hparser : part? ["max_depth"] (entries.lookup "parser") = some [some v])
    (houtput : part? ["url_encode", "pretty"] (entries.lookup "output") = some [some w, some x])
    (hdepth : depthOf? v = some depth) (hencode : boolOf? w = some encode) (hpretty : boolOf? x = some pretty) :
    ofEntries? entries = some ⟨level, depth, encode, pretty⟩ := by
  rw [ofEntries?, hlevel, hparser, houtput]
  simp only [Option.bind_eq_bind, Option.bind_some, readOr, hdepth, hencode, hpretty]
  rfl

theorem ofEntries?_savedEntries (s : Settings) : ofEntries? s.savedEntries = some s := by
  have hlevel : s.savedEntries.lookup "log_level" = s.logLevel.map .string := by
    unfold savedEntries levelEntries
    cases s.logLevel <;> simp [List.lookup]
  have hparser : s.savedEntries.lookup "parser" =
      some (.table .header [("max_depth", .integer s.maxDepth.toNat)]) := by
    unfold savedEntries levelEntries
    cases s.logLevel <;> simp [List.lookup]
  have houtput : s.savedEntries.lookup "output" =
      some (.table .header [("url_encode", .boolean s.urlEncode), ("pretty", .boolean s.pretty)]) := by
    unfold savedEntries levelEntries
    cases s.logLevel <;> simp [List.lookup]
  have hencode : boolOf? (.boolean s.urlEncode) = some s.urlEncode := rfl
  have hpretty : boolOf? (.boolean s.pretty) = some s.pretty := rfl
  refine ofEntries?_of_part? ?_ ?_ ?_ (depthOf?_toNat s.maxDepth) hencode hpretty
  · rw [hlevel]
    cases s.logLevel <;> rfl
  · rw [hparser]
    simp [part?]
  · rw [houtput]
    simp [part?, List.lookup]

/-- **The text of settings spells them.** -/
theorem ofToml?_toToml (s : Settings) : ofToml? s.toToml = some s := by
  rw [ofToml?, parse?_toToml, Option.bind_some, ofEntries?_savedEntries]

/-! ## The file -/

/-- A file over the usual settings decides each of them, also where it gives the usual value. -/
theorem merge_usual (s : Settings) : merge {} s = s := by
  have hsame {α : Type} [DecidableEq α] (usual v : α) : (if v = usual then usual else v) = v := by
    split
    · next h => exact h.symm
    · rfl
  simp only [merge, hsame, Option.or_none]

variable {s : Settings} {d d' : Directory} {path : String}

theorem save_eq_ok_iff : s.save d path = .ok d' ↔
    (extension? path = none ∨ extension? path = some "toml") ∧
      d.write path (Text.Utf8.encode s.toToml) = .ok d' := by
  have hextension : (extension? path).getD "toml" = "toml" ↔
      extension? path = none ∨ extension? path = some "toml" := by
    cases extension? path <;> simp
  rw [save, ← hextension]
  split
  · next h => simp [h]
  · next h =>
    rw [not_not] at h
    cases d.write path (Text.Utf8.encode s.toToml) <;> simp [h, Except.mapError]

/-- **Settings can be saved where a file can be put whose name has the right extension or none**, whatever the
settings. -/
theorem exists_save_iff : (∃ d', s.save d path = .ok d') ↔
    (extension? path = none ∨ extension? path = some "toml") ∧
      ∃ place, d.locateNew path = .ok place ∧ d.entry? place ≠ some .folder := by
  constructor
  · rintro ⟨d', h⟩
    obtain ⟨hextension, hwrite⟩ := save_eq_ok_iff.mp h
    obtain ⟨place, hplace, hfolder, -⟩ := Directory.write_eq_ok_iff.mp hwrite
    exact ⟨hextension, place, hplace, hfolder⟩
  · rintro ⟨hextension, place, hplace, hfolder⟩
    exact ⟨_, save_eq_ok_iff.mpr ⟨hextension, Directory.write_eq_ok_iff.mpr ⟨place, hplace, hfolder, rfl⟩⟩⟩

theorem readText_of_save (h : s.save d path = .ok d') : d'.readText path = .ok s.toToml :=
  Directory.readText_of_read (Directory.read_of_write (save_eq_ok_iff.mp h).2)

theorem ofFile_of_extension_ne (h : extension? path ≠ some "toml") :
    ofFile d path = .error (.unknownFormat path) := by
  rw [ofFile, mergeFile, readFile, if_pos h]
  rfl

theorem ofFile_of_readText (hextension : extension? path = some "toml") (h : d.readText path = .ok s.toToml) :
    ofFile d path = .ok s := by
  rw [ofFile, mergeFile, readFile, if_neg (not_not.mpr hextension), h]
  simp only [ofToml?_toToml]
  rw [Except.map, merge_usual]

/-- **Saved settings are loaded again.** Whatever the settings, they can be saved wherever a file can be put whose name
has the right extension or none. The file then holds their text, and this text spells just these settings: every depth
and both choices are written, and a log level that is set is quoted so that each of its characters is read back. So
loading the file gives the settings, all four of them. Only a file whose name has no extension is refused when it is
to be loaded, though it could be saved. -/
theorem ofFile_of_save (s : Settings) (d : Directory) (path : String) :
    ((∃ d', s.save d path = .ok d') ↔
      (extension? path = none ∨ extension? path = some "toml") ∧
        ∃ place, d.locateNew path = .ok place ∧ d.entry? place ≠ some .folder) ∧
    ∀ d', s.save d path = .ok d' →
      d'.readText path = .ok s.toToml ∧ ofToml? s.toToml = some s ∧
        ofFile d' path = if extension? path = some "toml" then .ok s else .error (.unknownFormat path) := by
  refine ⟨exists_save_iff, fun d' h => ⟨readText_of_save h, ofToml?_toToml s, ?_⟩⟩
  split
  · next hextension => exact ofFile_of_readText hextension (readText_of_save h)
  · next hextension => exact ofFile_of_extension_ne hextension

/-- A folder with nothing in it, and the program in it. -/
def emptyFolder : Directory := { here := ["work"], entries := [] }

/-- A log level with quotes of both kinds, a backslash, controls and line ends, the greatest depth that 63 bits hold,
and the unusual choices of output. -/
def unusualSettings : Settings where
  logLevel := some "\"\"\" \\ ''' \r\n\t\x01\n"
  maxDepth := 9223372036854775807
  urlEncode := true
  pretty := false

/-- Settings whose log level needs escapes on several lines. -/
theorem ofFile_of_save_quoted :
    ∃ d', unusualSettings.save emptyFolder "my.toml" = .ok d' ∧ ofFile d' "my.toml" = .ok unusualSettings := by
  have hextension : extension? "my.toml" = some "toml" := by
    rw [extension?, properNames, splitOn_slash]
    decide +kernel
  have hplace : emptyFolder.locateNew "my.toml" = .ok ["work", "my.toml"] := by
    rw [Directory.locateNew, Directory.names, splitOn_slash]
    decide +kernel
  obtain ⟨hsave, hload⟩ := ofFile_of_save unusualSettings emptyFolder "my.toml"
  obtain ⟨d', hd'⟩ := hsave.mpr ⟨.inr hextension, _, hplace, by decide +kernel⟩
  have hfile := (hload d' hd').2.2
  rw [if_pos hextension] at hfile
  exact ⟨d', hd', hfile⟩

/-- A file without an extension is saved, and then refused. -/
theorem ofFile_of_save_no_extension :
    ∃ d', save { maxDepth := 12 } emptyFolder "settings" = .ok d' ∧
      d'.readText "settings" = .ok (toToml { maxDepth := 12 }) ∧
      ofFile d' "settings" = .error (.unknownFormat "settings") := by
  have hextension : extension? "settings" = none := by
    rw [extension?, properNames, splitOn_slash]
    decide +kernel
  have hplace : emptyFolder.locateNew "settings" = .ok ["work", "settings"] := by
    rw [Directory.locateNew, Directory.names, splitOn_slash]
    decide +kernel
  obtain ⟨d', hsave⟩ := exists_save_iff.mpr ⟨.inl hextension, _, hplace, by decide +kernel⟩
  exact ⟨d', hsave, readText_of_save hsave, ofFile_of_extension_ne (by rw [hextension]; decide)⟩

end RecordFilter.Settings
