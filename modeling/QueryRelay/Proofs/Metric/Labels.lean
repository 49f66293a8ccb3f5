import Mathlib.Data.List.Induction
import QueryRelay.Metric.Monitoring

/-!
# Labels that a configuration adds

A monitoring configuration may add labels of its own to every emission.  They are set one after the other, and each goes
through all the labels that are there by then, those that the configuration has added before among them.

* `Labels.set` — sets one label: whatever has its name goes, and it comes to the end.
* `Labels.foldl_set` — **setting labels under distinct names** leaves those with other names as they are and puts the
  new ones behind them.
* `labels_merge_additional` — what that makes of the labels of an emission, and that it is enough to do it once.
-/

namespace QueryRelay

namespace Labels

/-- Sets one label, at the end; all labels with its name go. -/
def set (labels : Labels) (label : String × String) : Labels := labels.filter (fun l => l.1 ≠ label.1) ++ [label]

/-- The labels with names that are not among these. -/
def besides (labels : Labels) (names : List String) : Labels := labels.filter fun l => l.1 ∉ names

variable {added : Labels}

theorem besides_append (labels more : Labels) (names : List String) :
    besides (labels ++ more) names = besides labels names ++ besides more names :=
  List.filter_append ..

theorem besides_eq_self {labels : Labels} {names : List String} (h : ∀ l ∈ labels, l.1 ∉ names) :
    labels.besides names = labels :=
  List.filter_eq_self.2 fun l hl => decide_eq_true (h l hl)

theorem besides_own_names (labels : Labels) : labels.besides (labels.map Prod.fst) = [] :=
  List.filter_eq_nil_iff.2 fun _ hl => by simpa using ⟨_, hl⟩

/-- To leave out one more name, one may leave it out afterwards. -/
theorem besides_concat (labels : Labels) (names : List String) (name : String) :
    labels.besides (names ++ [name]) = (labels.besides names).filter fun l => l.1 ≠ name := by
  rw [besides, besides, List.filter_filter]
  refine List.filter_congr fun l _ => ?_
  simp [and_comm]

/-- **Labels under distinct names.**  Setting one of them does not reach those that were set before it, so that all of
them are there in the end, in their order. -/
theorem foldl_set (hdistinct : (added.map Prod.fst).Nodup) (base : Labels) :
    added.foldl set base = base.besides (added.map Prod.fst) ++ added := by
  induction added using List.reverseRecOn with
  | nil => simp [besides_eq_self]
  | append_singleton earlier last ih =>
    rw [List.map_append, List.map_singleton] at hdistinct ⊢
    obtain ⟨hearlier, -, hapart⟩ := List.nodup_append.1 hdistinct
    have hkept : earlier.filter (fun l => l.1 ≠ last.1) = earlier := by
      refine List.filter_eq_self.2 fun l hl => decide_eq_true ?_
      exact hapart _ (List.mem_map_of_mem hl) _ (List.mem_singleton_self _)
    rw [List.foldl_append, ih hearlier, List.foldl_cons, List.foldl_nil, set, List.filter_append, hkept,
      ← besides_concat, List.append_assoc]

/-- Among labels with distinct names, each is the only one with its name. -/
theorem filter_name_eq_singleton (hdistinct : (added.map Prod.fst).Nodup) {label : String × String}
    (hlabel : label ∈ added) : added.filter (fun l => l.1 = label.1) = [label] := by
  induction added with
  | nil => exact absurd hlabel List.not_mem_nil
  | cons first rest ih =>
    obtain ⟨hfirst, hrest⟩ := List.nodup_cons.1 hdistinct
    rcases List.mem_cons.1 hlabel with rfl | hmem
    · have hnone : rest.filter (fun l => l.1 = label.1) = [] := by
        refine List.filter_eq_nil_iff.2 fun l hl hsame => hfirst ?_
        exact of_decide_eq_true hsame ▸ List.mem_map_of_mem hl
      rw [List.filter_cons_of_pos (by simp), hnone]
    · have hne : first.1 ≠ label.1 := fun hsame => hfirst (hsame ▸ List.mem_map_of_mem hmem)
      rw [List.filter_cons_of_neg (by simpa using hne), ih hrest hmem]

end Labels

namespace MonitoringConfig

variable (config : MonitoringConfig) (base : Labels)

/-- The labels that a configuration adds, in ascending order of their names. -/
def additional : Labels := (config.additionalLabels.getD .empty).entries

theorem ascending_additional : (config.additional.map Prod.fst).Pairwise (· < ·) :=
  List.pairwise_map.2 (config.additionalLabels.getD .empty).ascending

/-- Names that ascend are distinct. -/
theorem nodup_additional : (config.additional.map Prod.fst).Nodup :=
  config.ascending_additional.imp fun h => String.ne_of_lt h

/-- What a configuration makes of the labels of an emission. -/
theorem labels_eq : config.labels base = base.besides (config.additional.map Prod.fst) ++ config.additional :=
  Labels.foldl_set config.nodup_additional base

/-- What is there after the labels were added has them already. -/
theorem labels_labels : config.labels (config.labels base) = config.labels base := by
  have hkept : (base.besides (config.additional.map Prod.fst)).besides (config.additional.map Prod.fst) =
      base.besides (config.additional.map Prod.fst) :=
    Labels.besides_eq_self fun l hl => of_decide_eq_true (List.mem_filter.1 hl).2
  rw [config.labels_eq (config.labels base), config.labels_eq base, Labels.besides_append, hkept,
    Labels.besides_own_names, List.append_nil]

/-- A label that the configuration adds is the only one with its name. -/
theorem filter_labels_of_mem {label : String × String} (hlabel : label ∈ config.additional) :
    (config.labels base).filter (fun l => l.1 = label.1) = [label] := by
  have hnone : (base.besides (config.additional.map Prod.fst)).filter (fun l => l.1 = label.1) = [] := by
    refine List.filter_eq_nil_iff.2 fun l hl hsame => ?_
    have hother : l.1 ∉ config.additional.map Prod.fst := of_decide_eq_true (List.mem_filter.1 hl).2
    exact hother (of_decide_eq_true hsame ▸ List.mem_map_of_mem hlabel)
  rw [labels_eq, List.filter_append, hnone, List.nil_append,
    Labels.filter_name_eq_singleton config.nodup_additional hlabel]

end MonitoringConfig

/-- **Labels of an emission and those of the configuration.**  Whatever the labels of an emission are, those whose name
the configuration does not use stay, in their order and as often as they are there, and the labels of the configuration
come after them, in ascending order of their names.  Each of these is then the only label with its name, and adding them
again changes nothing. -/
theorem labels_merge_additional (config : MonitoringConfig) (base : Labels) :
    config.labels base = (base.filter fun l => l.1 ∉ config.additional.map Prod.fst) ++ config.additional ∧
      (config.additional.map Prod.fst).Pairwise (· < ·) ∧
      (∀ label ∈ config.additional, (config.labels base).filter (fun l => l.1 = label.1) = [label]) ∧
      config.labels (config.labels base) = config.labels base :=
  ⟨config.labels_eq base, config.ascending_additional, fun _ => config.filter_labels_of_mem base,
    config.labels_labels base⟩

/-- An emission has two labels with a name that the configuration uses, and a label that is there twice. -/
theorem labels_merge_additional_of_repeated :
    ∃ config : MonitoringConfig, ∃ base : Labels,
      base = [("env", "prod"), ("operation", "batch"), ("env", "spare"), ("operation", "batch")] ∧
      ("env", "test") ∈ config.additional ∧
      config.labels base = [("operation", "batch"), ("operation", "batch"), ("env", "test"), ("zone", "b")] ∧
      (config.labels base).filter (fun l => l.1 = "env") = [("env", "test")] ∧
      config.labels (config.labels base) = config.labels base := by
  set config : MonitoringConfig :=
    { MonitoringConfig.detailed with additionalLabels := some (.ofList [("zone", "b"), ("env", "test")]) } with hconfig
  set base : Labels := [("env", "prod"), ("operation", "batch"), ("env", "spare"), ("operation", "batch")] with hbase
  have hadditional : config.additional = [("env", "test"), ("zone", "b")] := by decide +kernel
  have hmem : ("env", "test") ∈ config.additional := hadditional ▸ List.mem_cons_self
  obtain ⟨hmerged, -, honce, htwice⟩ := labels_merge_additional config base
  refine ⟨config, base, hbase, hmem, ?_, honce _ hmem, htwice⟩
  rw [hmerged, hadditional]
  decide +kernel

end QueryRelay
