import BoardWiring.Command.Files
import Mathlib.Tactic.Common

/-!
# What writing does to a table of files

Writing by a path changes one file at most, the one where the path leads afterwards; the
directories that it makes leave all files as they are.

* `Files.content?_put_self` and `Files.content?_put_of_ne` are about a file put into a table, and
  `Files.locate_put` says that a path which leads to its place leads to it;
* `Files.files_makeDirectories` says that directories are made beside the files;
* `Files.Written` lists what can be left behind by writing, and `Files.written_write` says that it
  is nothing else.
-/

namespace BoardWiring

namespace Command

namespace Files

variable {fs fs' : Files} {r s here : Route} {content : List UInt8} {path : String}

/-! ### Putting a file -/

@[simp] theorem content?_put_self : (fs.put r content).content? r = some content := by
  rw [content?, put, List.lookup_cons_self]

theorem lookup_filter_of_ne {files : List (Route × List UInt8)} (h : s ≠ r) :
    (files.filter fun f => f.1 != r).lookup s = files.lookup s := by
  induction files with
  | nil => rfl
  | cons f files ih =>
    obtain ⟨t, c⟩ := f
    by_cases hr : t = r
    · have hs : (s == t) = false := by simpa [hr] using h
      rw [List.filter_cons_of_neg (by simp [hr]), ih, List.lookup_cons, hs]
    · rw [List.filter_cons_of_pos (by simpa using hr), List.lookup_cons, List.lookup_cons, ih]

theorem content?_put_of_ne (h : s ≠ r) : (fs.put r content).content? s = fs.content? s := by
  have hs : (s == r) = false := by simpa using h
  rw [content?, put, List.lookup_cons, hs]
  exact lookup_filter_of_ne h

/-- The directories after a file has been put are those before it, and those on the way to the
file. -/
theorem isDirectory_put (s : Route) :
    (fs.put r content).isDirectory s = true ↔ fs.isDirectory s = true ∨ isAbove s r = true := by
  have hfiles : ((fs.put r content).files.any fun f => isAbove s f.1) = true ↔
      (fs.files.any fun f => isAbove s f.1) = true ∨ isAbove s r = true := by
    rw [put, List.any_cons, Bool.or_eq_true, List.any_filter, List.any_eq_true, List.any_eq_true]
    constructor
    · rintro (h | ⟨f, hf, h⟩)
      · exact Or.inr h
      · exact Or.inl ⟨f, hf, (Bool.and_eq_true_iff.1 h).2⟩
    · rintro (⟨f, hf, h⟩ | h)
      · by_cases hr : f.1 = r
        · exact Or.inl (hr ▸ h)
        · exact Or.inr ⟨f, hf, by simp [hr, h]⟩
      · exact Or.inl h
  have hstart : (fs.put r content).start = fs.start := rfl
  have hdirectories : (fs.put r content).directories = fs.directories := rfl
  have hsinks : (fs.put r content).sinks = fs.sinks := rfl
  unfold isDirectory
  simp only [Bool.or_eq_true, hfiles, hstart, hdirectories, hsinks]
  tauto

theorem not_isAbove_self (r : Route) : isAbove r r = false := by
  simp [isAbove]

/-- A path that leads to the place of a file leads to the file when it has been put there. -/
theorem walk_put {parts : List String}
    (h : fs.walk here parts = .file r ∨ fs.walk here parts = .vacant r) :
    (fs.put r content).walk here parts = .file r := by
  induction parts generalizing here with
  | nil => rcases h with h | h <;> cases h
  | cons name rest ih =>
    rw [walk] at h
    by_cases hdot : name = "" ∨ name = "."
    · rw [if_pos hdot] at h
      rw [walk, if_pos hdot]
      exact ih h
    by_cases hup : name = ".."
    · rw [if_neg hdot, if_pos hup] at h
      rw [walk, if_neg hdot, if_pos hup]
      exact ih h
    by_cases hlong : maxName < name.utf8ByteSize
    · rw [if_neg hdot, if_neg hup, if_pos hlong] at h
      rcases h with h | h <;> cases h
    rw [if_neg hdot, if_neg hup, if_neg hlong] at h
    rw [walk, if_neg hdot, if_neg hup, if_neg hlong]
    by_cases hdirectory : fs.isDirectory (here ++ [name]) = true
    · -- A directory on the way stays one.
      have hput : (fs.put r content).isDirectory (here ++ [name]) = true :=
        (isDirectory_put _).2 (Or.inl hdirectory)
      simp only [hdirectory, if_true] at h
      simp only [hput, if_true]
      exact ih h
    · -- Otherwise the path ends here, at the place of the file.
      have hend : fs.sinks.contains (here ++ [name]) = false ∧ rest.isEmpty = true ∧
          here ++ [name] = r := by
        simp only [hdirectory] at h
        split_ifs at h <;> simp_all
      obtain ⟨hsink, hrest, rfl⟩ := hend
      have hput : ¬(fs.put (here ++ [name]) content).isDirectory (here ++ [name]) = true := by
        rw [isDirectory_put, not_isAbove_self]
        simpa using hdirectory
      have hsink' : (fs.put (here ++ [name]) content).sinks.contains (here ++ [name]) = false :=
        hsink
      simp only [hput, hsink', hrest, content?_put_self, Option.isSome_some, if_true,
        Bool.false_eq_true, if_false]

theorem locate_put (h : fs.locate path = .file r ∨ fs.locate path = .vacant r) :
    (fs.put r content).locate path = .file r := by
  unfold locate at h ⊢
  split_ifs at h ⊢
  · rcases h with h | h <;> cases h
  · rcases h with h | h <;> cases h
  · rcases h with h | h <;> cases h
  · exact walk_put h
  · exact walk_put h

/-! ### Making directories -/

theorem files_makeDirectory : (fs.makeDirectory path).2.files = fs.files := by
  unfold makeDirectory
  split <;> rfl

/-- Directories are made beside the files, also if not all of them can be made. -/
theorem files_makeDirectories (fuel : Nat) (fs : Files) (path : String) :
    (makeDirectories fuel fs path).2.files = fs.files := by
  induction fuel generalizing fs path with
  | zero => rfl
  | succ fuel ih =>
    simp only [makeDirectories]
    split_ifs
    · exact files_makeDirectory
    · -- The directories above are tried first, and a failure among them ends it.
      have habove := ih fs (Path.directory path)
      rcases hmade : makeDirectories fuel fs (Path.directory path) with ⟨result, made⟩
      rw [hmade] at habove
      cases result with
      | error f => exact habove
      | ok u => exact files_makeDirectory.trans habove

theorem content?_of_makeDirectories {fuel : Nat} {result : Except FileFault Unit}
    (h : makeDirectories fuel fs path = (result, fs')) (r : Route) :
    fs'.content? r = fs.content? r := by
  have hfiles := files_makeDirectories fuel fs path
  rw [h] at hfiles
  rw [content?, content?, hfiles]

/-! ### Writing -/

/-- What is left behind when a text is written by a path: a failure may come when some directories
have been made, a sink takes every text without a change, and otherwise one file is changed, to
which the path leads then.  The file is empty if the text cannot be encoded. -/
inductive Written (fs : Files) (path : String) (text : LooseText) :
    Except FileFault Unit → Files → Prop where
  | failed {f : FileFault} {fs' : Files} (kept : ∀ s, fs'.content? s = fs.content? s) :
      Written fs path text (.error f) fs'
  | swallowed {fs' : Files} {t : String} (whole : text = t) (aim : fs'.locate path = .sink)
      (kept : ∀ s, fs'.content? s = fs.content? s) : Written fs path text (.ok ()) fs'
  | stored {fs' : Files} {r : Route} {t : String} (whole : text = t)
      (aim : fs'.locate path = .file r) (stored : fs'.content? r = some t.toUTF8.toList)
      (kept : ∀ s, s ≠ r → fs'.content? s = fs.content? s) : Written fs path text (.ok ()) fs'
  | emptied {fs' : Files} {r : Route} {f : EncodingFault} (fault : text.encode = .error f)
      (aim : fs'.locate path = .file r) (emptied : fs'.content? r = some [])
      (kept : ∀ s, s ≠ r → fs'.content? s = fs.content? s) :
      Written fs path text (.error (.ofText f)) fs'

variable {text : LooseText}

theorem Written.putText {made : Files}
    (h : made.locate path = .file r ∨ made.locate path = .vacant r)
    (hkept : ∀ s, made.content? s = fs.content? s) :
    Written fs path text (made.putText r text).1 (made.putText r text).2 := by
  have hothers : ∀ content s, s ≠ r → (made.put r content).content? s = fs.content? s :=
    fun _ s hs => (content?_put_of_ne hs).trans (hkept s)
  unfold Files.putText
  cases hencode : text.encode with
  | ok content =>
    obtain ⟨t, rfl, rfl⟩ := LooseText.encode_eq_ok_iff.1 hencode
    exact .stored rfl (locate_put h) content?_put_self (hothers _)
  | error f => exact .emptied hencode (locate_put h) content?_put_self (hothers _)

/-- **Writing changes one file or none.** -/
theorem written_write (fs : Files) (path : String) (text : LooseText) :
    Written fs path text (fs.write path text).1 (fs.write path text).2 := by
  unfold write
  rcases hmade : makeDirectories (path.length + 1) fs (directoryOf path) with ⟨result, made⟩
  have hkept := content?_of_makeDirectories hmade
  cases result with
  | error f => exact .failed hkept
  | ok _ =>
    simp only
    cases hlocate : made.locate path with
    | file r => exact .putText (Or.inl hlocate) hkept
    | vacant r => exact .putText (Or.inr hlocate) hkept
    | directory => exact .failed hkept
    | nowhere fault => exact .failed hkept
    | sink =>
      cases hencode : text.encode with
      | error f => exact .failed hkept
      | ok content =>
        obtain ⟨t, rfl, -⟩ := LooseText.encode_eq_ok_iff.1 hencode
        exact .swallowed rfl hlocate hkept

theorem Written.of_write {result : Except FileFault Unit}
    (h : fs.write path text = (result, fs')) : Written fs path text result fs' := by
  have hwritten := written_write fs path text
  rwa [h] at hwritten

/-- A text that has been written is read back, unless into a sink. -/
theorem Written.read (h : Written fs path text (.ok ()) fs') :
    ∃ t : String, text = t ∧
      (fs'.locate path = .sink ∨ fs'.read path = .ok t.toUTF8.toList) := by
  cases h with
  | swallowed whole aim => exact ⟨_, whole, Or.inl aim⟩
  | stored whole aim stored =>
    refine ⟨_, whole, Or.inr ?_⟩
    rw [Files.read, aim]
    change Except.ok ((fs'.content? _).getD []) = _
    rw [stored]
    rfl

end Files

end Command

end BoardWiring
