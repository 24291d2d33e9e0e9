import PlotGraph.Files

/-!
# What stands at a path

Whatever stands at a path, a file, a directory or nothing, can be told, and then there are bytes
to read or a reason why not (`Files.read_of_answers`). Only a name that is too long is no answer.
-/

namespace PlotGraph.Files

/-- It can be told what stands at a path. -/
def Answers (files : Files) (p : Path) : Prop := files.get p ≠ .error .nameTooLong

variable {files : Files} {p : Path}

/-- Where it can be told what stands at a path, reading it comes to a result. -/
theorem read_of_answers (h : files.Answers p) : ∃ opened, files.read p = .ok opened := by
  unfold read
  cases hget : files.get p with
  | ok entry =>
    cases entry with
    | file bytes => exact ⟨.ok bytes, rfl⟩
    | directory => exact ⟨.error .directory, rfl⟩
  | error problem =>
    cases problem with
    | nameTooLong => exact absurd hget h
    | _ => exact ⟨.error .missing, rfl⟩

theorem contains_of_answers (h : files.Answers p) : ∃ b, files.contains p = .ok b := by
  unfold contains
  cases hget : files.get p with
  | ok _ => exact ⟨true, rfl⟩
  | error problem =>
    cases problem with
    | nameTooLong => exact absurd hget h
    | _ => exact ⟨false, rfl⟩

/-- A path of one name can be followed if the name is short enough. -/
theorem answers_of_name {name : String} (hpath : (Path.mk .here [name]).text.utf8ByteSize ≤ maxPath)
    (hname : name.utf8ByteSize ≤ maxName) (files : Files) :
    files.Answers ⟨.here, [name]⟩ := by
  have hwalk : files.walk ⟨.here, []⟩ [name] = .ok (Path.step ⟨.here, []⟩ name) := by
    have hhere : files.isDirectory ⟨.here, []⟩ = true := rfl
    rw [walk, hhere]
    simp [Nat.not_lt.mpr hname, walk]
  unfold Answers get locate
  by_cases hnull : (Path.mk .here [name]).text.contains '\x00' = true
  · simp [hnull]
  · simp only [hnull, Nat.not_lt.mpr hpath, if_false, Bool.false_eq_true, hwalk]
    cases files.entryAt? (Path.step ⟨.here, []⟩ name) <;> simp

theorem locate_of_text {text : String} (htext : p.text = text)
    (hnull : text.contains '\x00' = false) (hlength : text.utf8ByteSize ≤ maxPath)
    (files : Files) : files.locate p = files.walk { p with names := [] } p.names := by
  rw [locate, htext, hnull, if_neg Bool.false_ne_true, if_neg (Nat.not_lt.mpr hlength)]

/-- A directory that is there is left alone. -/
theorem ensure_of_isDirectory {q : Path} (hlocate : files.locate p = .ok q)
    (hdirectory : files.isDirectory q = true) : files.ensure p = .ok files := by
  have hentry : files.entryAt? q = some .directory := if_pos hdirectory
  have hmake : files.makeOne p = .error .present := by
    simp only [makeOne, hlocate, bind, Except.bind, hentry]
    rfl
  have hget : files.get p = .ok .directory := by simp only [get, hlocate, hentry]
  rw [ensure, ensureOne, hmake]
  simp only [hget]

/-- Only one file, with the given bytes. -/
def single (p : Path) (bytes : List UInt8) : Files := { entries := .ofList [(p, .file bytes)] }

/-- Where there is only one file, it stands under its name, and nothing under another one. -/
theorem get_single {name given : String} (hup : name ≠ "..")
    (htext : (Path.mk .here [name]).text = name) (hnull : name.contains '\x00' = false)
    (hname : name.utf8ByteSize ≤ maxName) (bytes : List UInt8) :
    (single ⟨.here, [given]⟩ bytes).get ⟨.here, [name]⟩ =
      if given = name then .ok (.file bytes) else .error .missing := by
  have hentries : (single ⟨.here, [given]⟩ bytes).entries.entries =
      [(⟨.here, [given]⟩, .file bytes)] := rfl
  have hlocate : (single ⟨.here, [given]⟩ bytes).locate ⟨.here, [name]⟩ =
      .ok ⟨.here, [name]⟩ := by
    rw [locate_of_text htext hnull (Nat.le_trans hname (by decide)), walk]
    simp [isDirectory, Path.isAbove, Nat.not_lt.mpr hname, walk, Path.step, hup, Path.child]
  have hfile : (single ⟨.here, [given]⟩ bytes).isDirectory ⟨.here, [name]⟩ = false := by
    simp [isDirectory, Path.isAbove, hup, hentries]
  have hentry : (single ⟨.here, [given]⟩ bytes).entryAt? ⟨.here, [name]⟩ =
      if given = name then some (.file bytes) else none := by
    rw [entryAt?, hfile, if_neg Bool.false_ne_true, Mapping.get?, hentries]
    simp [Pairs.lookup]
  simp only [get, hlocate, hentry]
  by_cases h : given = name
  · rw [if_pos h, if_pos h]
  · rw [if_neg h, if_neg h]

end PlotGraph.Files
