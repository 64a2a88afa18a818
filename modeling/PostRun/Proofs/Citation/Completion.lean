import PostRun.Command.Program
import PostRun.Proofs.Files.Storage

/-!
# Completing the citation list of a directory

A directory is completed by reading two files and writing one.  Everything that can go wrong with
the page or the bibliography goes wrong before the write, and the write is the last step.  So a run
is one of two things: a failure behind which every file is as it was, or a success, which is the
write of a page that was passed on as a whole (`appending_of_error`, `appending_of_ok`).

Both follow from `appending_eq`, in which the run is laid out as what is read, what is made of it and
what is written.  There the order of the failures can be seen too: the page is read first, so what
is wrong with it is reported whatever the bibliography holds.
-/

namespace PostRun
namespace Citation

open Files

variable {σ : Type} [Access (StateM σ)]

/-- What appending links in a directory gives, and the state behind it. -/
def appending (s : σ) (directory references : String) : Logged (Except Failure Nat) × σ :=
  (appendInDirectory directory references : StateM σ (Logged (Except Failure Nat))).run s

/-- What a page that was read becomes, with the bibliography in the text of a file. -/
def passedOn (references : String) (source : Except IoError String) (page : String) :
    Logged (Except Failure (List Char × Nat)) :=
  match bibliographyIn references source with
  | .error e => pure (.error e)
  | .ok b => appendLinks b page.toList

/-- The end of a run: what is reported of it, and the state behind it. -/
def storing (s : σ) (path : String) (passed : Except Failure (List Char × Nat)) :
    Except Failure Nat × σ :=
  (storePage path passed : StateM σ (Except Failure Nat)).run s

/-- A bibliography is found in text that was read and can be understood. -/
theorem bibliographyIn_eq_ok_iff {path : String} {source : Except IoError String}
    {b : Bib.Bibliography} :
    bibliographyIn path source = .ok b ↔
      ∃ text, source = .ok text ∧ Bib.Bibliography.parse text = .ok b := by
  cases source with
  | error e =>
    constructor
    · intro h
      cases h
    · rintro ⟨text, htext, -⟩
      cases htext
  | ok text =>
    have hread : bibliographyIn path (.ok text) =
      (Bib.Bibliography.parse text).mapError (.bibliography (some path)) := rfl
    rw [hread]
    constructor
    · intro h
      cases hparse : Bib.Bibliography.parse text with
      | error e =>
        rw [hparse] at h
        cases h
      | ok b' =>
        rw [hparse] at h
        cases h
        exact ⟨text, rfl, hparse⟩
    · rintro ⟨text', htext, hparse⟩
      cases htext
      rw [hparse]
      rfl

/-- A page was passed on with a bibliography. -/
theorem passedOn_eq_ok_iff {references page : String} {source : Except IoError String}
    {passed : List Char × Nat} :
    (passedOn references source page).value = .ok passed ↔
      ∃ text b, source = .ok text ∧ Bib.Bibliography.parse text = .ok b ∧
        (appendLinks b page.toList).value = .ok passed := by
  cases hb : bibliographyIn references source with
  | error e =>
    have hnone : ∀ text b, source = .ok text → Bib.Bibliography.parse text ≠ .ok b := by
      intro text b htext hparse
      have hok : bibliographyIn references source = .ok b :=
        bibliographyIn_eq_ok_iff.2 ⟨text, htext, hparse⟩
      rw [hb] at hok
      cases hok
    constructor
    · intro h
      rw [passedOn, hb] at h
      cases h
    · rintro ⟨text, b, htext, hparse, -⟩
      exact absurd hparse (hnone text b htext)
  | ok b =>
    obtain ⟨text, rfl, hparse⟩ := bibliographyIn_eq_ok_iff.1 hb
    constructor
    · intro h
      rw [passedOn, hb] at h
      exact ⟨text, b, rfl, hparse, h⟩
    · rintro ⟨text', b', htext, hparse', h⟩
      cases htext
      cases hparse.symm.trans hparse'
      rw [passedOn, hb]
      exact h

theorem storing_error (s : σ) (path : String) (e : Failure) :
    storing s path (.error e) = (.error e, s) := rfl

/-- A page that was passed on is written. -/
theorem storing_ok (s : σ) (path : String) (page : List Char) (links : Nat) :
    storing s path (.ok (page, links)) =
      match writing s path (String.ofList page) with
      | (.error e, t) => (.error (.io path e), t)
      | (.ok (), t) => (.ok links, t) := by
  have hwrite : (writeText path (String.ofList page) : StateM σ (Except IoError Unit)) s =
      writing s path (String.ofList page) := rfl
  simp only [storing, storePage, StateT.run, bind, StateT.bind, hwrite]
  rcases writing s path (String.ofList page) with ⟨e | ⟨⟩, t⟩ <;> rfl

/-- The end of a run succeeds if there is a page to write and the write succeeds. -/
theorem storing_eq_ok_iff {s t : σ} {path : String} {passed : Except Failure (List Char × Nat)}
    {links : Nat} :
    storing s path passed = (.ok links, t) ↔
      ∃ page, passed = .ok (page, links) ∧ writing s path (String.ofList page) = (.ok (), t) := by
  rcases passed with e | ⟨page, n⟩
  · simp [storing_error]
  · rw [storing_ok]
    rcases hwrite : writing s path (String.ofList page) with ⟨e | ⟨⟩, u⟩
    · constructor
      · intro h
        cases h
      · rintro ⟨page', hpage, h⟩
        cases hpage
        rw [hwrite] at h
        cases h
    · constructor
      · intro h
        cases h
        exact ⟨page, rfl, hwrite⟩
      · rintro ⟨page', hpage, h⟩
        cases hpage
        rw [hwrite] at h
        cases h
        rfl

variable [Storage σ] {s t : σ} {directory references : String}

/-- The end of a run that fails changes nothing: nothing is written, or the write fails. -/
theorem snd_storing_of_error {path : String} {passed : Except Failure (List Char × Nat)}
    {e : Failure} (h : (storing s path passed).1 = .error e) :
    (storing s path passed).2 = s := by
  rcases passed with e' | ⟨page, links⟩
  · rfl
  · rw [storing_ok] at h ⊢
    rcases hwrite : writing s path (String.ofList page) with ⟨e' | ⟨⟩, t⟩
    · exact Storage.writing_of_error hwrite
    · rw [hwrite] at h
      cases h

/-- **A run, laid out.**  What is read comes first, and the write last; between them the state does
not change. -/
theorem appending_eq (s : σ) (directory references : String) :
    appending s directory references =
      match (reading s (pagePath directory)).1 with
      | .error e => (pure (.error (.io (pagePath directory) e)), s)
      | .ok page =>
          let passed := passedOn references (reading s references).1 page
          let stored := storing s (pagePath directory) passed.value
          (⟨passed.records, stored.1⟩, stored.2) := by
  have hpage : (readText (pagePath directory) : StateM σ (Except IoError String)) s =
      ((reading s (pagePath directory)).1, s) :=
    Prod.ext rfl (Storage.snd_reading s _)
  have hsource : (readText references : StateM σ (Except IoError String)) s =
      ((reading s references).1, s) :=
    Prod.ext rfl (Storage.snd_reading s _)
  have hread : (readBibliography references : StateM σ (Except Failure Bib.Bibliography)) s =
      (bibliographyIn references (reading s references).1, s) := by
    simp only [readBibliography, bind, StateT.bind, hsource]
    rfl
  simp only [appending, appendInDirectory, StateT.run, bind, StateT.bind, hpage]
  cases (reading s (pagePath directory)).1 with
  | error e => rfl
  | ok page =>
    simp only [StateT.bind, hread, passedOn]
    cases bibliographyIn references (reading s references).1 <;> rfl

/-- What is wrong with the page is reported whatever the bibliography holds. -/
theorem appending_of_page_error {e : IoError}
    (h : (reading s (pagePath directory)).1 = .error e) :
    appending s directory references = (pure (.error (.io (pagePath directory) e)), s) := by
  rw [appending_eq, h]

/-- A run that fails leaves the state as it was. -/
theorem appending_of_error {e : Failure}
    (h : (appending s directory references).1.value = .error e) :
    (appending s directory references).2 = s := by
  rw [appending_eq] at h ⊢
  cases hpage : (reading s (pagePath directory)).1 with
  | error e' => rfl
  | ok page =>
    rw [hpage] at h
    exact snd_storing_of_error h

/-- **The page of a directory was completed.**  It was read and passed on as a whole, with the
bibliography in a file; what it became was written in its place, and no other file has changed. -/
def Completes (s : σ) (directory references : String) (links : Nat) (t : σ) : Prop :=
  ∃ file page text b rewritten,
    Storage.fileAt? s (pagePath directory) = some file ∧
    Storage.bytes? s file = some page.toUTF8 ∧
    (reading s (pagePath directory)).1 = .ok page ∧
    (reading s references).1 = .ok text ∧ Bib.Bibliography.parse text = .ok b ∧
    (appendLinks b page.toList).value = .ok (rewritten, links) ∧
    writing s (pagePath directory) (String.ofList rewritten) = (.ok (), t) ∧
    Storage.bytes? t file = some (String.ofList rewritten).toUTF8 ∧
    ∀ other, other ≠ file → Storage.bytes? t other = Storage.bytes? s other

/-- A page is completed once it was passed on and the write at the end succeeded: the file that was
read is the one that is written. -/
theorem completes_iff {links : Nat} :
    Completes s directory references links t ↔
      ∃ page, (reading s (pagePath directory)).1 = .ok page ∧
        storing s (pagePath directory) (passedOn references (reading s references).1 page).value =
          (.ok links, t) := by
  constructor
  · rintro ⟨-, page, text, b, rewritten, -, -, hpage, htext, hparse, hpassed, hwrite, -, -⟩
    have hvalue : (passedOn references (reading s references).1 page).value = .ok _ :=
      passedOn_eq_ok_iff.2 ⟨text, b, htext, hparse, hpassed⟩
    exact ⟨page, hpage, storing_eq_ok_iff.2 ⟨rewritten, hvalue, hwrite⟩⟩
  · rintro ⟨page, hpage, hstored⟩
    obtain ⟨rewritten, hvalue, hwrite⟩ := storing_eq_ok_iff.1 hstored
    obtain ⟨text, b, htext, hparse, hpassed⟩ := passedOn_eq_ok_iff.1 hvalue
    obtain ⟨file, bytes, hfile, hbytes, hold⟩ := Storage.of_reading hpage
    obtain ⟨written, hwritten, hnew, hothers⟩ := Storage.writing_of_ok hwrite
    obtain rfl : file = written := Option.some.inj (hfile.symm.trans hwritten)
    rw [eq_toUTF8_of_textOf hold] at hbytes
    exact ⟨file, page, text, b, rewritten, hfile, hbytes, hpage, htext, hparse, hpassed, hwrite,
      hnew, hothers⟩

/-- **A run that succeeds** has completed the page. -/
theorem appending_eq_ok_iff {links : Nat} :
    (appending s directory references).1.value = .ok links ∧
        (appending s directory references).2 = t ↔
      Completes s directory references links t := by
  rw [completes_iff, appending_eq]
  cases hpage : (reading s (pagePath directory)).1 with
  | error e => simp
  | ok page =>
    constructor
    · rintro ⟨hvalue, hstate⟩
      exact ⟨page, rfl, Prod.ext hvalue hstate⟩
    · rintro ⟨page', hpage', hstored⟩
      cases hpage'
      exact ⟨congrArg Prod.fst hstored, congrArg Prod.snd hstored⟩

/-! ## The program -/

/-- The program ends with zero behind work that succeeded. -/
theorem code_report_eq_zero_iff (settings : Command.Settings)
    (work : Logged (Except Failure Nat)) :
    (settings.report work).code = 0 ↔ ∃ links, work.value = .ok links := by
  cases hwork : work.value with
  | error e =>
    have hannounced : (Command.announce settings work).value = .error e := by
      simp [Command.announce, hwork]
    rw [Command.Settings.report]
    simp only [hannounced]
    split <;> simp
  | ok links =>
    have hannounced : (Command.announce settings work).value = .ok links := by
      simp [Command.announce, hwork]
    rw [Command.Settings.report]
    simp [hannounced]

/-- What the program reports, and the state behind it. -/
def running (s : σ) (arguments : List String) : Command.Report × σ :=
  (Command.run arguments : StateM σ Command.Report).run s

omit [Storage σ] in
/-- With arguments that it understands the program reports a run. -/
theorem running_eq {arguments : List String} {settings : Command.Settings}
    (h : Command.readArguments arguments = .ok settings) (s : σ) :
    running s arguments =
      (settings.report (appending s settings.htmlDirectory settings.referencesFile).1,
        (appending s settings.htmlDirectory settings.referencesFile).2) := by
  rw [running, Command.run, h]
  rfl

/-- **A failed run leaves every file as it was.**  For any state of any file system on which a write
that fails has no effect: behind a failure all files hold what they held; a run ends with some number
of links and in some state if and only if the page of the directory is completed that way, by which no
other file changes; what is wrong with the page is reported whatever the bibliography is; and the
program, if it understands its arguments, ends in the state of that run, and with code zero if and
only if the page was completed. -/
theorem appendInDirectory_keeps_files (s : σ) (directory references : String) :
    (∀ e, (appending s directory references).1.value = .error e → ∀ file,
      Storage.bytes? (appending s directory references).2 file = Storage.bytes? s file) ∧
    (∀ links t, (appending s directory references).1.value = .ok links ∧
        (appending s directory references).2 = t ↔
      Completes s directory references links t) ∧
    (∀ e, (reading s (pagePath directory)).1 = .error e →
      (appending s directory references).1.value = .error (.io (pagePath directory) e)) ∧
    ∀ arguments settings, Command.readArguments arguments = .ok settings →
      settings.htmlDirectory = directory → settings.referencesFile = references →
      (running s arguments).2 = (appending s directory references).2 ∧
      ((running s arguments).1.code = 0 ↔
        ∃ links, Completes s directory references links (running s arguments).2) := by
  refine ⟨?_, fun links t => appending_eq_ok_iff, ?_, ?_⟩
  · intro e he file
    rw [appending_of_error he]
  · intro e he
    rw [appending_of_page_error he]
    rfl
  · rintro arguments settings hsettings rfl rfl
    rw [running_eq hsettings]
    refine ⟨rfl, ?_⟩
    rw [code_report_eq_zero_iff]
    refine exists_congr fun links => ?_
    rw [← appending_eq_ok_iff]
    exact ⟨fun hvalue => ⟨hvalue, rfl⟩, And.left⟩

/-- A page without citations, one that cites an unknown entry, and a bibliography without entries. -/
def twoSites : Tree :=
  ⟨((((NameMap.empty.insert "refs.bib" (Content.file "".toUTF8)).insert "site" .directory).insert
    "draft" .directory).insert "site/citelist.html" (.file "<p>x</p>".toUTF8)).insert
      "draft/citelist.html" (.file "<a id=CITEREF_A></a><p>x</p>".toUTF8)⟩

/-- The program completes the first page, and leaves everything as it was at the second. -/
theorem appendInDirectory_keeps_files_twoSites :
    (running twoSites ["--html-dir", "site", "--references-file", "refs.bib"]).1.code = 0 ∧
    (appending twoSites "draft" "refs.bib").1.value = .error (.missingReference "A") ∧
    ∀ file, Storage.bytes? (appending twoSites "draft" "refs.bib").2 file =
      Storage.bytes? twoSites file := by
  have hparse : Bib.Bibliography.parse "" = .ok .empty := by
    have hitems : Bib.Source.parse "" = .ok ⟨[], []⟩ := rfl
    have hempty : Bib.Bibliography.ofSource ⟨[], []⟩ = .ok .empty := by
      simp only [Bib.Bibliography.ofSource, Bib.Bibliography.completed, Bib.Bibliography.empty,
        List.foldlM_nil, pure_bind, Array.mapM_empty]
      rfl
    rw [Bib.Bibliography.parse, hitems]
    exact hempty
  have hsource : (reading twoSites "refs.bib").1 = .ok "" := by rfl
  have hsite : (reading twoSites (pagePath "site")).1 = .ok "<p>x</p>" := by rfl
  have hdraft : (reading twoSites (pagePath "draft")).1 = .ok "<a id=CITEREF_A></a><p>x</p>" := by
    rfl
  have hbibliography : bibliographyIn "refs.bib" (reading twoSites "refs.bib").1 = .ok .empty :=
    bibliographyIn_eq_ok_iff.2 ⟨"", hsource, hparse⟩
  obtain ⟨-, -, -, hprogram⟩ := appendInDirectory_keeps_files twoSites "site" "refs.bib"
  obtain ⟨hunchanged, -⟩ := appendInDirectory_keeps_files twoSites "draft" "refs.bib"
  have hcompletes : Completes twoSites "site" "refs.bib" 0
      (writing twoSites (pagePath "site") "<p>x</p>").2 := by
    refine completes_iff.2 ⟨"<p>x</p>", hsite, storing_eq_ok_iff.2 ⟨"<p>x</p>".toList, ?_, rfl⟩⟩
    rw [passedOn, hbibliography]
    rfl
  have hfails : (appending twoSites "draft" "refs.bib").1.value = .error (.missingReference "A") := by
    rw [appending_eq, hdraft]
    simp only [passedOn, hbibliography]
    rfl
  obtain ⟨hstate, hcode⟩ := hprogram ["--html-dir", "site", "--references-file", "refs.bib"]
    ⟨"site", "refs.bib", 0⟩ rfl rfl rfl
  rw [hcode, hstate, (appending_eq_ok_iff.2 hcompletes).2]
  exact ⟨⟨0, hcompletes⟩, hfails, hunchanged _ hfails⟩

end Citation
end PostRun
