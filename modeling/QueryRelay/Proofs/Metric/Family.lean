import Mathlib.Data.List.Infix
import QueryRelay.Metric.Monitoring

/-!
# Families of metric names

The switches of a monitoring configuration stand for families of names, and a family has its names by their stems.
Whatever a name is, at most one family claims it, so that no other switch has a say in whether it is collected.

* `MetricFamily.Claims` — a family claims the names that start with one of its stems; `MetricFamily.Claims.unique`:
  **a name has one family**, if it has any, since no stem of a family is the beginning of a stem of another one.
* `MonitoringConfig.switch` — a configuration with one switch set.
* `MonitoringConfig.familyCollects_of_claims` — the switch of its family decides about a name.
* `name_answers_to_one_switch` — what follows for two configurations, for a switch that is flipped, and for a name
  without a family.
-/

namespace QueryRelay

/-! ## Which family claims a name -/

/-- The stems of all families, the error family among them. -/
def MonitoringConfig.allStems : List (String × MetricFamily) := errorStems.map (·, .error) ++ stems

namespace MetricFamily

open MonitoringConfig (allStems startsWith errorStems stems)

variable {name : String} {family other : MetricFamily}

/-- A family claims the names that start with one of its stems. -/
def Claims (family : MetricFamily) (name : String) : Prop :=
  ∃ stem, (stem, family) ∈ allStems ∧ startsWith name stem = true

theorem startsWith_iff {stem : String} : startsWith name stem = true ↔ stem.toList <+: name.toList :=
  List.isPrefixOf_iff_prefix

/-- No stem of a family is the beginning of a stem of another one. -/
theorem stems_apart : ∀ a ∈ allStems, ∀ b ∈ allStems, a.1.toList <+: b.1.toList → a.2 = b.2 := by
  decide +kernel

/-- **A name has one family**, if it has any. -/
theorem Claims.unique (h : family.Claims name) (hother : other.Claims name) : family = other := by
  obtain ⟨stem, hstem, hstarts⟩ := h
  obtain ⟨stem', hstem', hstarts'⟩ := hother
  -- Of two beginnings of one name, the shorter one is the beginning of the longer one.
  rcases List.prefix_or_prefix_of_prefix (startsWith_iff.1 hstarts) (startsWith_iff.1 hstarts') with hshort | hshort
  · exact stems_apart _ hstem _ hstem' hshort
  · exact (stems_apart _ hstem' _ hstem hshort).symm

theorem claims_error_iff : error.Claims name ↔ errorStems.any (startsWith name) = true := by
  rw [List.any_eq_true]
  constructor
  · rintro ⟨stem, hstem, hstarts⟩
    rcases List.mem_append.1 hstem with herror | hrest
    · obtain ⟨_, hmem, heq⟩ := List.mem_map.1 herror
      exact ⟨stem, (Prod.mk.inj heq).1 ▸ hmem, hstarts⟩
    · have hnone : ∀ s ∈ stems, s.2 ≠ error := by decide
      exact absurd rfl (hnone _ hrest)
  · rintro ⟨stem, hmem, hstarts⟩
    exact ⟨stem, List.mem_append_left _ (List.mem_map_of_mem hmem), hstarts⟩

theorem claims_of_mem_stems {stem : String} (hstem : (stem, family) ∈ stems) (h : startsWith name stem = true) :
    family.Claims name :=
  ⟨stem, List.mem_append_right _ hstem, h⟩

theorem Claims.exists_mem_stems (h : family.Claims name) (herror : ¬error.Claims name) :
    ∃ stem, (stem, family) ∈ stems ∧ startsWith name stem = true := by
  obtain ⟨stem, hstem, hstarts⟩ := h
  refine ⟨stem, (List.mem_append.1 hstem).resolve_left fun hmem => herror ?_, hstarts⟩
  obtain ⟨_, _, heq⟩ := List.mem_map.1 hmem
  exact ⟨stem, (Prod.mk.inj heq).2 ▸ hstem, hstarts⟩

end MetricFamily

/-! ## What the switches decide -/

namespace MonitoringConfig

variable {config : MonitoringConfig} {name : String} {family : MetricFamily}

/-- The configuration with the switch of a family set. -/
def switch (config : MonitoringConfig) (family : MetricFamily) (on : Bool) : MonitoringConfig :=
  match family with
  | .query => { config with collectQuery := on }
  | .session => { config with collectSession := on }
  | .transaction => { config with collectTransaction := on }
  | .batch => { config with collectBatch := on }
  | .error => { config with collectError := on }
  | .connection => { config with collectConnection := on }

theorem collects_switch (on : Bool) (other : MetricFamily) :
    (config.switch family on).collects other = if other = family then on else config.collects other := by
  cases family <;> cases other <;> rfl

/-- A switch has no say in the lists, nor in the labels. -/
theorem switch_eq (config : MonitoringConfig) (family : MetricFamily) (on : Bool) :
    (config.switch family on).enabled = config.enabled ∧ (config.switch family on).admits = config.admits ∧
      (config.switch family on).labels = config.labels := by
  cases family <;> exact ⟨rfl, rfl, rfl⟩

/-- The switch of its family decides about a name. -/
theorem familyCollects_of_claims (h : family.Claims name) : config.familyCollects name = config.collects family := by
  rw [familyCollects]
  split
  case isTrue herror => rw [h.unique (MetricFamily.claims_error_iff.2 herror), collects]
  case isFalse herror =>
    rw [Bool.eq_iff_iff, List.any_eq_true]
    constructor
    · rintro ⟨⟨stem, other⟩, hstem, hcollects⟩
      obtain ⟨hon, hstarts⟩ := Bool.and_eq_true_iff.1 hcollects
      rwa [h.unique (MetricFamily.claims_of_mem_stems hstem hstarts)]
    · intro hon
      obtain ⟨stem, hstem, hstarts⟩ := h.exists_mem_stems (mt MetricFamily.claims_error_iff.1 herror)
      exact ⟨(stem, family), hstem, Bool.and_eq_true_iff.2 ⟨hon, hstarts⟩⟩

theorem familyCollects_eq_false (h : ∀ family : MetricFamily, ¬family.Claims name) :
    config.familyCollects name = false := by
  rw [familyCollects, if_neg (mt MetricFamily.claims_error_iff.2 (h .error)), List.any_eq_false]
  rintro ⟨stem, family⟩ hstem hcollects
  exact h family (MetricFamily.claims_of_mem_stems hstem (Bool.and_eq_true_iff.1 hcollects).2)

/-- A name is collected if monitoring is on, the lists let it through, and the switch of its family is on. -/
theorem shouldCollect_of_claims (h : family.Claims name) :
    config.shouldCollect name = (config.enabled && config.admits name && config.collects family) := by
  rw [shouldCollect, familyCollects_of_claims h]

theorem shouldCollect_eq_false (h : ∀ family : MetricFamily, ¬family.Claims name) :
    config.shouldCollect name = false := by
  rw [shouldCollect, familyCollects_eq_false h, Bool.and_false]

/-- A switch has no say in names that its family does not claim. -/
theorem shouldCollect_switch (h : ¬family.Claims name) (on : Bool) :
    (config.switch family on).shouldCollect name = config.shouldCollect name := by
  obtain ⟨henabled, hadmits, -⟩ := config.switch_eq family on
  by_cases hsome : ∃ other : MetricFamily, other.Claims name
  · obtain ⟨other, hother⟩ := hsome
    have hne : other ≠ family := fun heq => h (heq ▸ hother)
    rw [shouldCollect_of_claims hother, shouldCollect_of_claims hother, henabled, hadmits, collects_switch,
      if_neg hne]
  · rw [shouldCollect_eq_false (not_exists.1 hsome), shouldCollect_eq_false (not_exists.1 hsome)]

theorem admits_congr {other : MonitoringConfig} (hincluded : config.included = other.included)
    (hexcluded : config.excluded = other.excluded) (name : String) : config.admits name = other.admits name := by
  rw [admits, admits, hincluded, hexcluded]

end MonitoringConfig

open MonitoringConfig in
/-- **A name answers to one switch.**  At most one family claims it.  If two configurations that are on and have the
same lists disagree about the name, then a family claims it, they disagree about the switch of that family, and each
says what its switch says.  To flip the switch of any other family changes nothing for the name, and a name that no
family claims never passes. -/
theorem name_answers_to_one_switch (name : String) :
    (∀ family other : MetricFamily, family.Claims name → other.Claims name → family = other) ∧
      (∀ c d : MonitoringConfig, c.enabled = true → d.enabled = true → c.included = d.included →
        c.excluded = d.excluded → c.shouldCollect name ≠ d.shouldCollect name →
        ∃ family : MetricFamily, family.Claims name ∧ c.collects family ≠ d.collects family ∧
          c.shouldCollect name = c.collects family ∧ d.shouldCollect name = d.collects family) ∧
      (∀ (c : MonitoringConfig) (family : MetricFamily) (on : Bool), ¬family.Claims name →
        (c.switch family on).shouldCollect name = c.shouldCollect name ∧
          ∀ e : Emission, e.name = name → (c.switch family on).forward? e = c.forward? e) ∧
      ((∀ family : MetricFamily, ¬family.Claims name) → ∀ c : MonitoringConfig,
        c.shouldCollect name = false ∧ ∀ e : Emission, e.name = name → c.forward? e = none) := by
  refine ⟨fun _ _ => MetricFamily.Claims.unique, ?differ, ?flip, ?unclaimed⟩
  case differ =>
    intro c d hc hd hincluded hexcluded hne
    by_cases hsome : ∃ family : MetricFamily, family.Claims name
    case neg =>
      have hnone := not_exists.1 hsome
      exact absurd ((shouldCollect_eq_false hnone).trans (shouldCollect_eq_false hnone).symm) hne
    case pos =>
      obtain ⟨family, hfamily⟩ := hsome
      have hlists := admits_congr hincluded hexcluded name
      -- The lists let the name through: otherwise both would say no.
      cases hadmits : c.admits name with
      | false =>
        have hdadmits := hlists.symm.trans hadmits
        refine absurd ?_ hne
        rw [shouldCollect, shouldCollect, hadmits, hdadmits, Bool.and_false, Bool.and_false, Bool.false_and,
          Bool.false_and]
      | true =>
        have hcanswer : c.shouldCollect name = c.collects family := by
          rw [shouldCollect_of_claims hfamily, hc, hadmits, Bool.true_and, Bool.true_and]
        have hdanswer : d.shouldCollect name = d.collects family := by
          rw [shouldCollect_of_claims hfamily, hd, ← hlists, hadmits, Bool.true_and, Bool.true_and]
        exact ⟨family, hfamily, by rwa [hcanswer, hdanswer] at hne, hcanswer, hdanswer⟩
  case flip =>
    intro c family on hfamily
    refine ⟨shouldCollect_switch hfamily on, fun e hname => ?_⟩
    rw [forward?, forward?, hname, shouldCollect_switch hfamily, (c.switch_eq family on).2.2]
  case unclaimed =>
    intro hnone c
    refine ⟨shouldCollect_eq_false hnone, fun e hname => ?_⟩
    rw [forward?, hname, shouldCollect_eq_false hnone, if_neg Bool.false_ne_true]

/-- Retries of queries belong to transactions: the two configurations disagree about them, and the query switch, which
has names with the same beginning, changes nothing. -/
theorem query_retries_answer_to_transactions :
    MetricFamily.transaction.Claims "query_retries_total" ∧ ¬MetricFamily.query.Claims "query_retries_total" ∧
      MonitoringConfig.detailed.shouldCollect "query_retries_total" = true ∧
      MonitoringConfig.basic.shouldCollect "query_retries_total" = false ∧
      (∃ family : MetricFamily, family.Claims "query_retries_total" ∧
        MonitoringConfig.detailed.collects family ≠ MonitoringConfig.basic.collects family) ∧
      (MonitoringConfig.detailed.switch .query false).shouldCollect "query_retries_total" = true := by
  have hclaims : MetricFamily.transaction.Claims "query_retries_total" := ⟨"query_retries", by decide +kernel⟩
  have hdetailed : MonitoringConfig.detailed.shouldCollect "query_retries_total" = true := by decide +kernel
  have hbasic : MonitoringConfig.basic.shouldCollect "query_retries_total" = false := by decide +kernel
  obtain ⟨hunique, hdiffer, hflip, -⟩ := name_answers_to_one_switch "query_retries_total"
  have hquery : ¬MetricFamily.query.Claims "query_retries_total" := by
    intro hquery
    exact absurd (hunique _ _ hclaims hquery) (by decide)
  have hne : MonitoringConfig.detailed.shouldCollect "query_retries_total" ≠
      MonitoringConfig.basic.shouldCollect "query_retries_total" := by
    rw [hdetailed, hbasic]
    decide
  obtain ⟨family, hfamily, hcollects, -⟩ := hdiffer .detailed .basic rfl rfl rfl rfl hne
  exact ⟨hclaims, hquery, hdetailed, hbasic, ⟨family, hfamily, hcollects⟩,
    ((hflip .detailed .query false hquery).1).trans hdetailed⟩

end QueryRelay
