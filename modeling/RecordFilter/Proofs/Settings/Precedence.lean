import Mathlib
import RecordFilter.Command.Run
import RecordFilter.Proofs.Directory
import RecordFilter.Proofs.Filter.Writable
import RecordFilter.Proofs.Text.Pieces

/-!
# Precedence — which source decides a setting

The command line, the environment, the file that is named and the file that is found each give some of the
settings. The settings that are loaded are those of the first of them that gives one, except that a file
which is put over another one does not count where it gives the usual value: there the lower file decides.

* `Settings.Given`: what a source gives, and what one source gives over another one.
* `Settings.ofEntries?_eq`, `Settings.Given.settings_merge`: the settings of a file, and of files put over each
  other, by what the files give.
* `Settings.FileGives`, `Settings.load_eq_ok_iff`: when settings are loaded, and which ones.
* `Settings.Eclipsed`: where the lower of two files decides though the upper one gives a value.
* `Settings.twoFiles`: a directory in which one settings file is found and another one can be named.
* `Command.Arguments.settings_precedence`: the settings of a command line, and the sources that decide them.
-/

namespace RecordFilter

namespace Settings

/-! ## What a source gives -/

/-- The settings where no source gives any. -/
def usual : Settings := {}

/-- What a source gives: a value, or none, for each of the settings. -/
structure Given where
  logLevel : Option String := none
  maxDepth : Option UInt64 := none
  urlEncode : Option Bool := none
  pretty : Option Bool := none
  deriving DecidableEq, Repr

namespace Given

/-- What the upper source gives, and where it gives nothing, what the lower one gives. -/
def orElse (upper lower : Given) : Given where
  logLevel := upper.logLevel.or lower.logLevel
  maxDepth := upper.maxDepth.or lower.maxDepth
  urlEncode := upper.urlEncode.or lower.urlEncode
  pretty := upper.pretty.or lower.pretty

/-- The settings that a source gives, with the usual values where it gives none. -/
def settings (g : Given) : Settings where
  logLevel := g.logLevel.or usual.logLevel
  maxDepth := g.maxDepth.getD usual.maxDepth
  urlEncode := g.urlEncode.getD usual.urlEncode
  pretty := g.pretty.getD usual.pretty

/-- What a source gives, the usual values left out. -/
def unusual (g : Given) : Given where
  logLevel := g.logLevel
  maxDepth := g.maxDepth.filter (· ≠ usual.maxDepth)
  urlEncode := g.urlEncode.filter (· ≠ usual.urlEncode)
  pretty := g.pretty.filter (· ≠ usual.pretty)

/-- What the entries of a settings file give: the value of each key that is there. -/
def ofEntries? (entries : Toml.Entries) : Option Given := do
  let logLevel ← (entries.lookup "log_level").mapM textOf?
  match ← part? ["max_depth"] (entries.lookup "parser"),
      ← part? ["url_encode", "pretty"] (entries.lookup "output") with
  | [depth], [encode, pretty] =>
    return {
      logLevel
      maxDepth := ← depth.mapM depthOf?
      urlEncode := ← encode.mapM boolOf?
      pretty := ← pretty.mapM boolOf? }
  | _, _ => none

/-- What the text of a settings file gives. -/
def ofToml? (text : String) : Option Given := (Toml.parse? text).bind ofEntries?

/-- What the environment gives. A depth that is no number stands for the usual one. -/
def ofEnvironment (environment : List (String × String)) : Given where
  logLevel := environment.lookup "SIFT_LOG"
  maxDepth := (environment.lookup "SIFT_MAX_DEPTH").map fun value =>
    (Number.word64? value.toList).getD usual.maxDepth
  urlEncode := (environment.lookup "SIFT_URL_ENCODE").map isYes

end Given

/-- To read a value or take the usual one is to read it if it is there. -/
theorem readOr_eq {α : Type} (read? : Toml → Option α) (usual : α) (v : Option Toml) :
    readOr read? usual v = (v.mapM read?).map (·.getD usual) := by
  cases v with
  | none => rfl
  | some v => cases h : read? v <;> simp [readOr, h]

theorem readOr_some_eq {α : Type} (read? : Toml → Option α) (v : Option Toml) :
    readOr (fun v => (read? v).map some) none v = v.mapM read? := by
  cases v with
  | none => rfl
  | some v => cases h : read? v <;> simp [readOr, h]

/-- **The settings that entries spell are those that they give, and the usual ones beside.** -/
theorem ofEntries?_eq (entries : Toml.Entries) :
    ofEntries? entries = (Given.ofEntries? entries).map Given.settings := by
  unfold ofEntries? Given.ofEntries?
  simp only [readOr_some_eq]
  cases (entries.lookup "log_level").mapM textOf? with
  | none => rfl
  | some level =>
    cases part? ["max_depth"] (entries.lookup "parser") with
    | none => rfl
    | some parser =>
      cases part? ["url_encode", "pretty"] (entries.lookup "output") with
      | none => rfl
      | some output =>
        simp only [Option.bind_eq_bind, Option.bind_some]
        rcases parser with _ | ⟨depth, _ | _⟩
        · rfl
        · rcases output with _ | ⟨encode, _ | ⟨pretty, _ | _⟩⟩
          · rfl
          · rfl
          · simp only [readOr_eq]
            cases depth.mapM depthOf? with
            | none => rfl
            | some depth =>
              cases encode.mapM boolOf? with
              | none => rfl
              | some encode =>
                cases pretty.mapM boolOf? with
                | none => rfl
                | some pretty => cases level <;> rfl
          · rfl
        · rfl

theorem ofToml?_eq (text : String) : ofToml? text = (Given.ofToml? text).map Given.settings := by
  rw [ofToml?, Given.ofToml?, funext ofEntries?_eq, Option.map_bind]
  rfl

namespace Given

variable (g h : Given)

/-- A value that is not the usual one takes the place of another. -/
theorem getD_merge {α : Type} [DecidableEq α] (usual : α) (lower upper : Option α) :
    (if upper.getD usual = usual then lower.getD usual else upper.getD usual) =
      ((upper.filter (· ≠ usual)).or lower).getD usual := by
  cases upper with
  | none => simp
  | some v => by_cases hv : v = usual <;> simp [Option.filter, hv]

/-- **A file that is put over others gives what is not usual.** -/
theorem settings_merge : g.settings.merge h.settings = (h.unusual.orElse g).settings := by
  simp only [merge, settings, unusual, orElse, ← getD_merge]
  cases h.logLevel <;> rfl

/-- Where nothing lies below, the usual values make no difference. -/
theorem settings_unusual : (g.unusual.orElse {}).settings = g.settings := by
  have hsame {α : Type} [DecidableEq α] (usual : α) (v : Option α) :
      (v.filter (· ≠ usual)).getD usual = v.getD usual := by
    rw [← Option.or_none (o := v.filter _), ← getD_merge]
    split
    · next h => exact h.symm
    · rfl
  simp only [settings, orElse, unusual, Option.or_none, hsame]

/-- The environment counts whatever it gives. -/
theorem settings_withEnvironment (environment : List (String × String)) :
    g.settings.withEnvironment environment = ((ofEnvironment environment).orElse g).settings := by
  simp only [withEnvironment, settings, ofEnvironment, orElse, Option.getD_or, Option.or_assoc]
  rfl

/-- So does the depth of the command line. -/
theorem settings_withDepth (depth : Option UInt64) :
    g.settings.withDepth depth = (orElse { maxDepth := depth } g).settings := by
  simp only [withDepth, settings, orElse, Option.getD_or, Option.none_or]

end Given

/-! ## Files -/

/-- What a settings file gives that stands in a directory; where no file is named, there is nothing to give. -/
inductive FileGives (d : Directory) : Option String → Given → Prop
  | absent : FileGives d none {}
  | file {path text : String} {g : Given} (hextension : extension? path = some "toml")
      (htext : d.readText path = .ok text) (hgives : Given.ofToml? text = some g) : FileGives d (some path) g

variable {d : Directory} {s : Settings}

/-- A file that holds a text gives what the text gives. -/
theorem FileGives.of_read {path text : String} {g : Given} (hextension : extension? path = some "toml")
    (hread : d.read path = .ok (Text.Utf8.encode text)) (hgives : Given.ofToml? text = some g) :
    FileGives d (some path) g :=
  .file hextension (Directory.readText_of_read hread) hgives

/-- **The settings of a file are those that it gives**, and none if it is no settings file. -/
theorem readFile_eq_ok_iff {path : String} :
    readFile d path = .ok s ↔ ∃ g, FileGives d (some path) g ∧ s = g.settings := by
  constructor
  · intro h
    unfold readFile at h
    split at h
    · cases h
    · next hextension =>
      split at h
      · cases h
      · next text htext =>
        split at h
        · next spelled hspelled =>
          cases h
          rw [ofToml?_eq] at hspelled
          obtain ⟨g, hgives, rfl⟩ := Option.map_eq_some_iff.mp hspelled
          exact ⟨g, .file (not_not.mp hextension) htext hgives, rfl⟩
        · cases h
  · rintro ⟨g, ⟨⟩ | ⟨hextension, htext, hgives⟩, rfl⟩
    rw [readFile, if_neg (not_not.mpr hextension), htext]
    simp only [ofToml?_eq, hgives, Option.map_some]

theorem mergeFile?_eq_ok_iff {lower : Given} {named : Option String} :
    lower.settings.mergeFile? d named = .ok s ↔
      ∃ upper, FileGives d named upper ∧ s = (upper.unusual.orElse lower).settings := by
  cases named with
  | none =>
    constructor
    · rintro ⟨⟩
      exact ⟨{}, .absent, rfl⟩
    · rintro ⟨_, ⟨⟩, rfl⟩
      rfl
  | some path =>
    constructor
    · intro h
      obtain ⟨file, hfile, rfl⟩ := ok_of_map h
      obtain ⟨upper, hgives, rfl⟩ := readFile_eq_ok_iff.mp hfile
      exact ⟨upper, hgives, lower.settings_merge upper⟩
    · rintro ⟨upper, hgives, rfl⟩
      rw [mergeFile?, mergeFile, readFile_eq_ok_iff.mpr ⟨upper, hgives, rfl⟩, ← Given.settings_merge]
      rfl

/-- **Settings are loaded exactly if every file that there is gives some.** -/
theorem load_eq_ok_iff {w : Surroundings} {named : Option String} :
    load w named = .ok s ↔
      ∃ lower upper, FileGives w.directory (found? w) lower ∧ FileGives w.directory named upper ∧
        s = ((Given.ofEnvironment w.environment).orElse (upper.unusual.orElse lower)).settings := by
  have hempty : ({} : Settings) = Given.settings {} := rfl
  constructor
  · intro h
    obtain ⟨t, ht, h⟩ := ok_of_bind h
    rw [hempty, mergeFile?_eq_ok_iff] at ht
    obtain ⟨lower, hlower, rfl⟩ := ht
    obtain ⟨t, ht, h⟩ := ok_of_bind h
    rw [Given.settings_unusual, mergeFile?_eq_ok_iff] at ht
    obtain ⟨upper, hupper, rfl⟩ := ht
    cases h
    exact ⟨lower, upper, hlower, hupper, Given.settings_withEnvironment _ _⟩
  · rintro ⟨lower, upper, hlower, hupper, rfl⟩
    have hfound : mergeFile? {} w.directory (found? w) = .ok lower.settings := by
      rw [hempty, mergeFile?_eq_ok_iff]
      exact ⟨lower, hlower, lower.settings_unusual.symm⟩
    have hnamed : lower.settings.mergeFile? w.directory named = .ok (upper.unusual.orElse lower).settings :=
      mergeFile?_eq_ok_iff.mpr ⟨upper, hupper, rfl⟩
    rw [load, hfound, ← Given.settings_withEnvironment]
    simp only [bind, Except.bind, hnamed]
    rfl

/-! ## Files put over each other -/

/-- Nothing above two files gives a value, the upper file gives the usual one and the lower file another one. -/
def Eclipsed {α : Type} (usual : α) (above upper lower : Option α) : Prop :=
  above = none ∧ upper = some usual ∧ ∃ v, lower = some v ∧ v ≠ usual

/-- **The first source that gives a value decides, unless the lower of two files eclipses the upper one.** -/
theorem getD_unusual_eq_iff {α : Type} [DecidableEq α] {usual : α} {above upper lower : Option α} :
    (above.or ((upper.filter (· ≠ usual)).or lower)).getD usual = (above.or (upper.or lower)).getD usual ↔
      ¬ Eclipsed usual above upper lower := by
  unfold Eclipsed
  cases above with
  | some v => simp
  | none =>
    rw [Option.none_or, Option.none_or, ← Given.getD_merge]
    cases upper with
    | none => simp
    | some v =>
      by_cases hv : v = usual
      · cases lower <;> simp [hv]
      · simp [hv]

/-! ## A directory with two settings files -/

/-- Two settings files in one directory: the one that is found there, and another one to be named. -/
def twoFiles (found named : String) (environment : List (String × String)) : Surroundings where
  directory :=
    { here := ["work"]
      entries := [(["work", "sift.toml"], .file (Text.Utf8.encode found)),
        (["work", "explicit.toml"], .file (Text.Utf8.encode named))] }
  environment := environment

/-- The path leads to the name in the directory of the two files, from the root or from the directory itself. -/
def LeadsTo (path name : String) : Prop :=
  ('\x00' ∉ path.toList ∧ path ≠ "" ∧ path.utf8ByteSize ≤ pathLimit) ∧
    (path.startsWith "/" = true ∧ (path.toList.splitOn '/').map String.ofList = ["", "work", name] ∨
      path.startsWith "/" = false ∧ (path.toList.splitOn '/').map String.ofList = [name]) ∧
    name ∉ ["", ".", ".."] ∧ name.utf8ByteSize ≤ nameLimit

section TwoFiles

variable {found named path name : String} {environment : List (String × String)} {g g' : Given}

theorem LeadsTo.locate (h : LeadsTo path name) :
    (twoFiles found named environment).directory.locate path = .ok ["work", name] := by
  obtain ⟨⟨hzero, hne, hsize⟩, hnames, hproper, hshort⟩ := h
  simp only [List.mem_cons, List.not_mem_nil, or_false, not_or] at hproper
  have hwalk : (twoFiles found named environment).directory.walk ["work"] [name] = .ok ["work", name] := by
    simp [Directory.walk, Directory.entry?, twoFiles, hproper, Nat.not_lt.mpr hshort]
  rw [Directory.locate_eq _ hzero hne hsize, Directory.origin]
  rcases hnames with ⟨hroot, hnames⟩ | ⟨hroot, hnames⟩
  · have hfolder : "work".utf8ByteSize = 4 := by decide
    rw [if_pos hroot, hnames, ← hwalk]
    simp [Directory.walk, Directory.entry?, twoFiles, nameLimit, hfolder]
  · rw [hroot, hnames, ← hwalk]
    rfl

/-- A file in the directory gives what its text gives, if its name says that it holds settings. -/
theorem LeadsTo.fileGives {text : String} (hpath : LeadsTo path name) (hextension : extension? path = some "toml")
    (hfile : (twoFiles found named environment).directory.entry? ["work", name] = some (.file (Text.Utf8.encode text)))
    (h : Given.ofToml? text = some g) : FileGives (twoFiles found named environment).directory (some path) g := by
  have hread : (twoFiles found named environment).directory.read path = .ok (Text.Utf8.encode text) := by
    rw [Directory.read, hpath.locate]
    simp only [bind, Except.bind, hfile]
    rfl
  exact .of_read hextension hread h

theorem found?_twoFiles : found? (twoFiles found named environment) = some "/work/sift.toml" := by
  have hsearched : searched (twoFiles found named environment) = ["/work/sift.toml", "/work/.sift.toml"] := by
    rfl
  have hpath : LeadsTo "/work/sift.toml" "sift.toml" := by
    unfold LeadsTo
    decide +kernel
  have hholds : (twoFiles found named environment).directory.holds "/work/sift.toml" = true := by
    rw [Directory.holds, hpath.locate]
    rfl
  rw [found?, hsearched, List.find?_cons_of_pos hholds]

/-- The file that is found and the one that is named give what their texts give. -/
theorem fileGives_twoFiles (h : Given.ofToml? found = some g) (h' : Given.ofToml? named = some g') :
    FileGives (twoFiles found named environment).directory (found? (twoFiles found named environment)) g ∧
      FileGives (twoFiles found named environment).directory (some "explicit.toml") g' := by
  have hextension : ∀ path ∈ ["/work/sift.toml", "explicit.toml"], extension? path = some "toml" := by
    intro path hpath
    rw [extension?, properNames, splitOn_slash]
    revert path
    decide +kernel
  have hpaths : LeadsTo "/work/sift.toml" "sift.toml" ∧ LeadsTo "explicit.toml" "explicit.toml" := by
    unfold LeadsTo
    decide +kernel
  rw [found?_twoFiles]
  exact ⟨hpaths.1.fileGives (hextension _ (by simp)) rfl h, hpaths.2.fileGives (hextension _ (by simp)) rfl h'⟩

end TwoFiles

end Settings

namespace Command

open Settings

/-! ## The settings of a command line -/

/-- What the command line gives. -/
def Arguments.given (a : Arguments) : Given := { maxDepth := a.maxDepth }

/-- **The first source that gives a setting decides it**: the command line, the environment, the file that is
named, the file that is found, and then the usual value. Where settings are loaded, every file that there is gives
some. A file that is named does not count where it gives the usual value. So the first source decides the log level
always, and each other setting exactly if the file that is found does not eclipse the one that is named: that is
if no source above them gives the setting, the named file gives the usual value and the found one another one. -/
theorem Arguments.settings_precedence {a : Arguments} {w : Surroundings} {s : Settings}
    (h : a.settings w = .ok s) :
    ∃ found named : Given,
      FileGives w.directory (found? w) found ∧ FileGives w.directory a.settingsFile named ∧
      let environment := Given.ofEnvironment w.environment
      let first := (a.given.orElse (environment.orElse (named.orElse found))).settings
      s = (a.given.orElse (environment.orElse (named.unusual.orElse found))).settings ∧
      s.logLevel = first.logLevel ∧
      (s.maxDepth = first.maxDepth ↔
        ¬ Eclipsed usual.maxDepth (a.maxDepth.or environment.maxDepth) named.maxDepth found.maxDepth) ∧
      (s.urlEncode = first.urlEncode ↔
        ¬ Eclipsed usual.urlEncode environment.urlEncode named.urlEncode found.urlEncode) ∧
      (s.pretty = first.pretty ↔ ¬ Eclipsed usual.pretty none named.pretty found.pretty) := by
  obtain ⟨t, ht, h⟩ := ok_of_bind h
  obtain ⟨found, named, hfound, hnamed, rfl⟩ := load_eq_ok_iff.mp ht
  obtain ⟨-, -, h⟩ := ok_of_bind h
  cases h
  refine ⟨found, named, hfound, hnamed, ?_⟩
  rw [Given.settings_withDepth]
  refine ⟨rfl, rfl, ?_, ?_, ?_⟩
  · rw [← getD_unusual_eq_iff, Option.or_assoc, Option.or_assoc]
    rfl
  · rw [← getD_unusual_eq_iff]
    rfl
  · rw [← getD_unusual_eq_iff]
    rfl

/-- The depth that the environment gives is no number, so it is the usual one, and both files count below it.
The file that is named switches the percent-encoding off, which is usual: the file that is found switches it on. -/
theorem Arguments.settings_precedence_layers :
    let a : Arguments := ⟨some "explicit.toml", none, .showSettings⟩
    let w := twoFiles "[parser]\nmax_depth = 12\n[output]\nurl_encode = true\n"
      "log_level = \"info\"\n[output]\nurl_encode = false\npretty = false\n" [("SIFT_MAX_DEPTH", "deep")]
    let s : Settings := { logLevel := some "info", maxDepth := 64, urlEncode := true, pretty := false }
    a.settings w = .ok s ∧
      ∃ found named : Given,
        FileGives w.directory (found? w) found ∧ FileGives w.directory a.settingsFile named ∧
        s = (a.given.orElse ((Given.ofEnvironment w.environment).orElse (named.unusual.orElse found))).settings ∧
        ¬ Eclipsed usual.maxDepth (a.maxDepth.or (Given.ofEnvironment w.environment).maxDepth) named.maxDepth
          found.maxDepth := by
  intro a w s
  obtain ⟨hfound, hnamed⟩ : FileGives w.directory (found? w) { maxDepth := some 12, urlEncode := some true } ∧
      FileGives w.directory a.settingsFile
        { logLevel := some "info", urlEncode := some false, pretty := some false } :=
    fileGives_twoFiles (by decide +kernel) (by decide +kernel)
  have h : a.settings w = .ok s := by
    rw [Arguments.settings, load_eq_ok_iff.mpr ⟨_, _, hfound, hnamed, rfl⟩]
    decide +kernel
  obtain ⟨found, named, hf, hn, hs, -, hdepth, -⟩ := settings_precedence h
  refine ⟨h, found, named, hf, hn, hs, hdepth.mp ?_⟩
  rw [hs]
  rfl

/-- The file that is named allows 64 levels of groups, which is usual; the 12 levels of the file that is found
are allowed all the same. -/
theorem Arguments.settings_eclipsed :
    let a : Arguments := ⟨some "explicit.toml", none, .showSettings⟩
    let w := twoFiles "[parser]\nmax_depth = 12\n" "[parser]\nmax_depth = 64\n" []
    let found : Given := { maxDepth := some 12 }
    let named : Given := { maxDepth := some 64 }
    FileGives w.directory (found? w) found ∧ FileGives w.directory a.settingsFile named ∧
      (a.given.orElse ((Given.ofEnvironment w.environment).orElse (named.orElse found))).settings =
        { maxDepth := 64 } ∧
      a.settings w = .ok { maxDepth := 12 } := by
  intro a w found named
  obtain ⟨hfound, hnamed⟩ : FileGives w.directory (found? w) found ∧ FileGives w.directory a.settingsFile named :=
    fileGives_twoFiles (by decide +kernel) (by decide +kernel)
  refine ⟨hfound, hnamed, by decide +kernel, ?_⟩
  rw [Arguments.settings, load_eq_ok_iff.mpr ⟨_, _, hfound, hnamed, rfl⟩]
  decide +kernel

end Command

end RecordFilter
