import PlotGraph.Report
import Mathlib.Data.List.Basic

/-!
# What a report of several parts holds

Reports are put together by `concat`, `when` and the reports of single findings. Each of the
four lists of such a report is the lists of its parts, one after another. Where each part makes
one finding of a kind or none, those of the whole are a filter of what the parts are about
(`Report.filter_flatMap_of_subjects`).
-/

namespace PlotGraph

/-- To make something of each member that passes a test is to map those that pass. -/
theorem flatMap_ite_singleton {α β : Type} (p : α → Prop) [DecidablePred p] (f : α → β)
    (xs : List α) :
    (xs.flatMap fun x => if p x then [f x] else []) = (xs.filter fun x => p x).map f := by
  induction xs with
  | nil => rfl
  | cons x rest ih =>
      rw [List.flatMap_cons, ih]
      by_cases h : p x <;> simp [h]

namespace Report

/-- A list of findings that `merge` appends grows by that of each report that is added. -/
theorem foldl_merge_eq_append {α : Type} (findings : Report → List α)
    (hmerge : ∀ r other, findings (r.merge other) = findings r ++ findings other)
    (rs : List Report) (r : Report) :
    findings (rs.foldl merge r) = findings r ++ rs.flatMap findings := by
  induction rs generalizing r with
  | nil => simp
  | cons r' rest ih => rw [List.foldl_cons, ih, hmerge, List.flatMap_cons, List.append_assoc]

/-- In a report of several parts it is that of the parts one after another. -/
theorem concat_eq_flatMap {α : Type} (findings : Report → List α)
    (hempty : findings {} = [])
    (hmerge : ∀ r other, findings (r.merge other) = findings r ++ findings other)
    (rs : List Report) : findings (concat rs) = rs.flatMap findings := by
  rw [concat, foldl_merge_eq_append findings hmerge, hempty, List.nil_append]

/-- The defects of several reports are those of each, one after the other. -/
theorem errors_concat (rs : List Report) : (concat rs).errors = rs.flatMap (·.errors) :=
  concat_eq_flatMap _ rfl (fun _ _ => rfl) rs

theorem warnings_concat (rs : List Report) : (concat rs).warnings = rs.flatMap (·.warnings) :=
  concat_eq_flatMap _ rfl (fun _ _ => rfl) rs

theorem notes_concat (rs : List Report) : (concat rs).notes = rs.flatMap (·.notes) :=
  concat_eq_flatMap _ rfl (fun _ _ => rfl) rs

theorem suggestions_concat (rs : List Report) :
    (concat rs).suggestions = rs.flatMap (·.suggestions) :=
  concat_eq_flatMap _ rfl (fun _ _ => rfl) rs

/-- Findings that only one of several parts makes are those of that part. -/
theorem filter_flatMap_of_others {α : Type} {findings : Report → List α} {p : α → Bool}
    {before after : List Report} (r : Report)
    (hbefore : ∀ other ∈ before, (findings other).filter p = [])
    (hafter : ∀ other ∈ after, (findings other).filter p = []) :
    ((before ++ r :: after).flatMap findings).filter p = (findings r).filter p := by
  rw [List.filter_flatMap, List.flatMap_append, List.flatMap_cons,
    List.flatMap_eq_nil_iff.mpr hbefore, List.flatMap_eq_nil_iff.mpr hafter, List.nil_append,
    List.append_nil]

section Subjects

variable {σ α β : Type} {findings : Report → List α} {kind : α → Bool} {report : σ → Report}
  {p : σ → Prop} [DecidablePred p] {subjects : List σ}

/-- If the report on each subject has one finding of a kind where the subject meets a condition,
and none otherwise, then all reports together have one for each such subject, in order. -/
theorem filter_flatMap_of_subjects {shown : σ → α}
    (h : ∀ s ∈ subjects, (findings (report s)).filter kind = if p s then [shown s] else []) :
    ((subjects.map report).flatMap findings).filter kind =
      (subjects.filter fun s => p s).map shown := by
  rw [List.flatMap_map, List.filter_flatMap, ← flatMap_ite_singleton]
  exact List.flatMap_congr h

/-- The same for what is read off the findings. -/
theorem map_filter_flatMap_of_subjects {read : α → β} {shown : σ → β}
    (h : ∀ s ∈ subjects,
      ((findings (report s)).filter kind).map read = if p s then [shown s] else []) :
    (((subjects.map report).flatMap findings).filter kind).map read =
      (subjects.filter fun s => p s).map shown := by
  rw [List.flatMap_map, List.filter_flatMap, List.map_flatMap, ← flatMap_ite_singleton]
  exact List.flatMap_congr h

end Subjects

/-- Several reports have no defects exactly if none of them has one. -/
theorem errors_concat_eq_nil_iff {rs : List Report} :
    (concat rs).errors = [] ↔ ∀ r ∈ rs, r.errors = [] := by
  rw [errors_concat, List.flatMap_eq_nil_iff]

@[simp] theorem errors_ofDefect (d : Defect) : (ofDefect d).errors = [d] := rfl

@[simp] theorem errors_ofWarning (w : Warning) : (ofWarning w).errors = [] := rfl

@[simp] theorem errors_ofNote (n : Note) : (ofNote n).errors = [] := rfl

@[simp] theorem errors_ofSuggestion (s : Suggestion) : (ofSuggestion s).errors = [] := rfl

/-- A report under a condition has no defects unless the condition holds. -/
@[simp] theorem errors_when_eq_nil_iff {condition : Bool} {r : Report} :
    (when condition r).errors = [] ↔ (condition = true → r.errors = []) := by
  cases condition <;> simp [when]

@[simp] theorem suggestions_ofWarning (w : Warning) : (ofWarning w).suggestions = [] := rfl

@[simp] theorem suggestions_ofNote (n : Note) : (ofNote n).suggestions = [] := rfl

@[simp] theorem suggestions_when_eq_nil_iff {condition : Bool} {r : Report} :
    (when condition r).suggestions = [] ↔ (condition = true → r.suggestions = []) := by
  cases condition <;> simp [when]

/-- Several reports have no suggestions exactly if none of them has one. -/
theorem suggestions_concat_eq_nil_iff {rs : List Report} :
    (concat rs).suggestions = [] ↔ ∀ r ∈ rs, r.suggestions = [] := by
  rw [suggestions_concat, List.flatMap_eq_nil_iff]

theorem errors_when_ofDefect (condition : Bool) (d : Defect) :
    (when condition (ofDefect d)).errors = if condition = true then [d] else [] := by
  cases condition <;> rfl

@[simp] theorem warnings_when_ofDefect (condition : Bool) (d : Defect) :
    (when condition (ofDefect d)).warnings = [] := by
  cases condition <;> rfl

theorem warnings_when_ofWarning (condition : Bool) (w : Warning) :
    (when condition (ofWarning w)).warnings = if condition = true then [w] else [] := by
  cases condition <;> rfl

/-- A warning under a condition is there exactly if the condition holds. -/
theorem mem_warnings_when_ofWarning {condition : Bool} {v w : Warning} :
    v ∈ (when condition (ofWarning w)).warnings ↔ condition = true ∧ v = w := by
  cases condition <;> simp [when, ofWarning]

/-- There is nothing to filter where no warning has the code. -/
theorem filter_warnings_eq_nil {r : Report} {code : String}
    (h : ∀ w ∈ r.warnings, w.code ≠ code) : (r.warnings.filter fun w => w.code = code) = [] :=
  List.filter_eq_nil_iff.mpr fun w hw hcode => h w hw (of_decide_eq_true hcode)

/-! ### Codes -/

/-- The codes of a report are those of its findings; suggestions have none. -/
theorem mem_codes {r : Report} {code : String} : code ∈ r.codes ↔
    (∃ d ∈ r.errors, d.code = code) ∨ (∃ w ∈ r.warnings, w.code = code) ∨
      ∃ n ∈ r.notes, n.code = code := by
  simp only [codes, List.mem_append, List.mem_map, or_assoc]

/-- The codes of defects, warnings and notes, each with the node it is anchored at. -/
def sites (r : Report) : List (String × Option String) :=
  r.errors.map (fun d => (d.code, d.nodeId)) ++ r.warnings.map (fun w => (w.code, w.nodeId)) ++
    r.notes.map fun n => (n.code, n.nodeId)

theorem map_fst_sites (r : Report) : r.sites.map Prod.fst = r.codes := by
  simp only [sites, codes, List.map_append, List.map_map, Function.comp_def]

/-- Where there are only warnings, the sites are theirs. -/
theorem sites_of_warnings {r : Report} (herrors : r.errors = []) (hnotes : r.notes = []) :
    r.sites = r.warnings.map fun w => (w.code, w.nodeId) := by
  rw [sites, herrors, hnotes, List.map_nil, List.map_nil, List.nil_append, List.append_nil]

theorem mem_codes_of_mem_errors {r : Report} {d : Defect} (h : d ∈ r.errors) :
    d.code ∈ r.codes :=
  mem_codes.mpr (Or.inl ⟨d, h, rfl⟩)

theorem mem_codes_of_mem_warnings {r : Report} {w : Warning} (h : w ∈ r.warnings) :
    w.code ∈ r.codes :=
  mem_codes.mpr (Or.inr (Or.inl ⟨w, h, rfl⟩))

theorem mem_codes_of_mem_notes {r : Report} {n : Note} (h : n ∈ r.notes) : n.code ∈ r.codes :=
  mem_codes.mpr (Or.inr (Or.inr ⟨n, h, rfl⟩))

/-- The codes of several reports are those of each. -/
theorem mem_codes_concat {rs : List Report} {code : String} :
    code ∈ (concat rs).codes ↔ ∃ r ∈ rs, code ∈ r.codes := by
  simp only [mem_codes, errors_concat, warnings_concat, notes_concat, List.mem_flatMap]
  constructor
  · rintro (⟨d, ⟨r, hr, hd⟩, hcode⟩ | ⟨w, ⟨r, hr, hw⟩, hcode⟩ | ⟨n, ⟨r, hr, hn⟩, hcode⟩)
    · exact ⟨r, hr, Or.inl ⟨d, hd, hcode⟩⟩
    · exact ⟨r, hr, Or.inr (Or.inl ⟨w, hw, hcode⟩)⟩
    · exact ⟨r, hr, Or.inr (Or.inr ⟨n, hn, hcode⟩)⟩
  · rintro ⟨r, hr, ⟨d, hd, hcode⟩ | ⟨w, hw, hcode⟩ | ⟨n, hn, hcode⟩⟩
    · exact Or.inl ⟨d, ⟨r, hr, hd⟩, hcode⟩
    · exact Or.inr (Or.inl ⟨w, ⟨r, hr, hw⟩, hcode⟩)
    · exact Or.inr (Or.inr ⟨n, ⟨r, hr, hn⟩, hcode⟩)

/-- No warning has a code that the report does not have. -/
theorem filter_warnings_eq_nil_of_not_mem {r : Report} {code : String} (h : code ∉ r.codes) :
    (r.warnings.filter fun w => w.code = code) = [] := by
  apply filter_warnings_eq_nil
  rintro w hw rfl
  exact h (mem_codes_of_mem_warnings hw)

/-- A report keeps to some codes if its defects, its warnings and its notes do. -/
theorem codes_subset_iff {r : Report} {codes : List String} : r.codes ⊆ codes ↔
    (∀ d ∈ r.errors, d.code ∈ codes) ∧ (∀ w ∈ r.warnings, w.code ∈ codes) ∧
      ∀ n ∈ r.notes, n.code ∈ codes := by
  simp only [List.subset_def, mem_codes, or_imp, forall_and, forall_exists_index, and_imp,
    forall_apply_eq_imp_iff₂]

/-- Several reports keep to some codes if each of them does. -/
theorem codes_concat_subset {rs : List Report} {codes : List String}
    (h : ∀ r ∈ rs, r.codes ⊆ codes) : (concat rs).codes ⊆ codes := by
  intro code hcode
  obtain ⟨r, hr, hcode⟩ := mem_codes_concat.mp hcode
  exact h r hr hcode

/-- A report under a condition keeps to the codes of the report. -/
theorem codes_when_subset {condition : Bool} {r : Report} {codes : List String}
    (h : r.codes ⊆ codes) : (when condition r).codes ⊆ codes := by
  cases condition with
  | false => exact List.nil_subset codes
  | true => exact h

theorem not_mem_codes_when {condition : Bool} {r : Report} {code : String}
    (h : code ∉ r.codes) : code ∉ (when condition r).codes :=
  fun hmem => h (codes_when_subset (List.Subset.refl _) hmem)

@[simp] theorem codes_ofDefect (d : Defect) : (ofDefect d).codes = [d.code] := rfl

@[simp] theorem codes_ofWarning (w : Warning) : (ofWarning w).codes = [w.code] := rfl

@[simp] theorem codes_ofNote (n : Note) : (ofNote n).codes = [n.code] := rfl

end Report
end PlotGraph
