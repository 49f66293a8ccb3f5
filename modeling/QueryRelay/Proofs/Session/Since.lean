import QueryRelay.Proofs.Session.Change

/-!
# Sessions that stay tracked

What becomes of a session between two moments at which it is tracked?  It does not go back to
*created*, and its last use changes only by its being used.

* `SessionState.Since`, `Registry.Since` — what has become of a session, and of all of them, since
  some moment.
* `Exchange.since` — **every run** leads to a registry of this kind.
* `Exchange.settings_run` — no run changes the settings.
-/

namespace QueryRelay

/-- What has become of a session that stayed tracked since some moment, when it was `old`. -/
structure SessionState.Since (moment : Instant) (old s : SessionState) : Prop where
  created : s.status = .created → old.status = .created
  lastUsedAt : s.lastUsedAt = old.lastUsedAt ∨ moment ≤ s.lastUsedAt

namespace SessionState.Since

variable {moment : Instant} {old s : SessionState}

theorem refl (moment : Instant) (s : SessionState) : Since moment s s := ⟨id, .inl rfl⟩

theorem transition {next : SessionStatus} (hnext : next ≠ .created) (h : Since moment old s) :
    Since moment old (s.transition next) := by
  unfold SessionState.transition
  split
  · exact ⟨fun hcreated => absurd hcreated hnext, h.lastUsedAt⟩
  · exact h

theorem use {now : Instant} (hnow : moment ≤ now) (counter : SessionCounter) (delta : Nat)
    (h : Since moment old s) : Since moment old ((s.bump counter delta).touch now) :=
  transition (by decide) ⟨h.created, .inr hnow⟩

theorem rest (h : Since moment old s) : Since moment old s.rest := by
  unfold SessionState.rest
  split
  · exact h.transition (by decide)
  · exact h

end SessionState.Since

/-- How the registry at some moment has gone on until now: more identifiers were given out, and what
is tracked under an old one was tracked then. -/
structure Registry.Since (moment : Instant) (before : Registry) (now : Instant) (g : Registry) : Prop where
  now : moment ≤ now
  nextSerial : before.nextSerial ≤ g.nextSerial
  tracked : ∀ id t, g.sessions.get? id = some t → id.serial < before.nextSerial →
    ∃ old, before.sessions.get? id = some old ∧ SessionState.Since moment old.state t.state

namespace Registry.Since

variable {moment now : Instant} {before g : Registry}

theorem update (h : Since moment before now g) (id : SessionId) {change : SessionState → SessionState}
    (hchange : ∀ old s, SessionState.Since moment old s → SessionState.Since moment old (change s)) :
    Since moment before now (g.update id change) where
  now := h.now
  nextSerial := h.nextSerial
  tracked := by
    intro other t ht hold
    simp only [Registry.update, Table.get?_modify] at ht
    split at ht
    · rename_i hid
      obtain ⟨t', ht', rfl⟩ := Option.map_eq_some_iff.1 ht
      obtain ⟨old, hbefore, hsince⟩ := h.tracked other t' (hid ▸ ht') hold
      exact ⟨old, hbefore, hchange _ _ hsince⟩
    · exact h.tracked other t ht hold

theorem track (h : Since moment before now g) (database : Option String) (remote : RemoteSession) :
    Since moment before now (g.track database remote now).1 where
  now := h.now
  nextSerial := Nat.le_succ_of_le h.nextSerial
  tracked := by
    intro id t ht hold
    simp only [Registry.track, Table.get?_insert] at ht
    split at ht
    · rename_i hid
      rw [hid] at hold
      exact absurd (Nat.lt_of_lt_of_le hold h.nextSerial) (Nat.lt_irrefl _)
    · exact h.tracked id t ht hold

theorem remove (h : Since moment before now g) (id : SessionId) : Since moment before now (g.remove id) where
  now := h.now
  nextSerial := h.nextSerial
  tracked := by
    intro other t ht hold
    simp only [Registry.remove, Table.get?_erase] at ht
    split at ht
    · exact absurd ht (by simp)
    · exact h.tracked other t ht hold

end Registry.Since

/-! ## Every run -/

theorem registryInvariant_since (moment : Instant) (before : Registry) :
    RegistryInvariant fun _ now g => Registry.Since moment before now g where
  change := by
    intro _ now g g' hchange h
    cases hchange with
    | places pending => exact ⟨h.now, h.nextSerial, h.tracked⟩
    | track database remote => exact h.track database remote
    | use id counter delta => exact h.update id fun _ _ hsince => hsince.use h.now counter delta
    | rest id => exact h.update id fun _ _ hsince => hsince.rest
    | note id message => exact h.update id fun _ _ hsince => ⟨hsince.created, hsince.lastUsedAt⟩
    | beginClosing id => exact h.update id fun _ _ hsince => hsince.transition (by decide)
    | remove id => exact h.remove id
  elapse := fun hlater h => ⟨Nat.le_trans h.now hlater, h.nextSerial, h.tracked⟩

/-- Nothing that calls do changes the settings. -/
theorem registryInvariant_settings (settings : Settings) : RegistryInvariant fun s _ _ => s = settings where
  change := fun _ h => h
  elapse := fun _ h => h

namespace Exchange

theorem since {x y : Exchange} {moves : List Move} (h : x.run moves = some y) :
    Registry.Since x.relay.now x.relay.registry y.relay.now y.relay.registry :=
  (registryInvariant_since x.relay.now x.relay.registry).invariant.satisfies_run h
    ⟨Nat.le_refl _, Nat.le_refl _, fun _ t ht _ => ⟨t, ht, .refl _ _⟩⟩

theorem settings_run {x y : Exchange} {moves : List Move} (h : x.run moves = some y) :
    y.relay.settings = x.relay.settings :=
  (registryInvariant_settings x.relay.settings).invariant.satisfies_run h rfl

end Exchange

end QueryRelay
