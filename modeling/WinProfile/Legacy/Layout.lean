/-
  File:      WinProfile/Legacy/Layout.lean
  Subject:   What the names in ProgramData denote while the bootstrap journal has these records, and
             how the steps of a migration change it.

  * `Stands` -- the namespace that the phase of an unfinished migration stands for.
  * `Base`, `Layout` -- the invariant of the names: the object that was found has one of them, and
    those of the migrations denote what the records say.
  * `Base.moved`, `Base.set` -- the two kinds of changes; the others leave the names alone and add a
    record.
-/
import WinProfile.Legacy.Writer

namespace WinProfile.Legacy

/-! ## 1. Names -/

abbrev Names := String → Option StorageObject

section Apart

variable {a b : String}

/-- A text that differs from the beginning of another one. -/
theorem append_ne {front rest text : String} (i : Nat) {c : Char} (hfront : front.toList[i]? = some c)
    (htext : text.toList[i]? ≠ some c) : front ++ rest ≠ text := by
  intro heq
  refine htext ?_
  have hlt : i < front.toList.length := (List.getElem?_eq_some_iff.mp hfront).1
  rw [← heq, String.toList_append, List.getElem?_append_left hlt, hfront]

theorem legacy_ne_next : LEGACY_PREFIX ++ a ≠ NEXT_PREFIX ++ b := by
  refine append_ne 11 (c := 'L') (by decide +kernel) ?_
  have hlt : 11 < NEXT_PREFIX.toList.length := by decide
  rw [String.toList_append, List.getElem?_append_left hlt]
  decide +kernel

theorem legacy_ne_product : LEGACY_PREFIX ++ a ≠ PRODUCT_DIRECTORY :=
  append_ne 11 (c := 'L') (by decide +kernel) (by decide +kernel)

theorem next_ne_product : NEXT_PREFIX ++ a ≠ PRODUCT_DIRECTORY :=
  append_ne 11 (c := 'N') (by decide +kernel) (by decide +kernel)

theorem legacy_ne_bootstrap : LEGACY_PREFIX ++ a ≠ BOOTSTRAP_DIRECTORY :=
  append_ne 11 (c := 'L') (by decide +kernel) (by decide +kernel)

theorem next_ne_bootstrap : NEXT_PREFIX ++ a ≠ BOOTSTRAP_DIRECTORY :=
  append_ne 11 (c := 'N') (by decide +kernel) (by decide +kernel)

theorem product_ne_bootstrap : PRODUCT_DIRECTORY ≠ BOOTSTRAP_DIRECTORY := by decide

theorem legacy_inj (h : LEGACY_PREFIX ++ a = LEGACY_PREFIX ++ b) : a = b :=
  (String.append_right_inj _).mp h

theorem next_inj (h : NEXT_PREFIX ++ a = NEXT_PREFIX ++ b) : a = b :=
  (String.append_right_inj _).mp h

end Apart

/-! ## 2. The invariant -/

/-- The name denotes the object with this identity. -/
def Denotes (names : Names) (name : String) (identity : StorageObjectIdentity) : Prop :=
  ∃ o, names name = some o ∧ o.identity = identity

/-- **What the phase of a migration stands for**: where the object that is detached is, and where the
root is that takes its place. -/
def Stands (names : Names) (u : MigrationStateRecord) : Prop :=
  match u.phase with
  | .prepared => names u.nextName = some (newRoot u.nextIdentity) ∧
    (Denotes names PRODUCT_DIRECTORY u.sourceIdentity ∧ names u.legacyName = none ∨
      names PRODUCT_DIRECTORY = none ∧ Denotes names u.legacyName u.sourceIdentity)
  | .detached => Denotes names u.legacyName u.sourceIdentity ∧
    (names u.nextName = some (newRoot u.nextIdentity) ∧ names PRODUCT_DIRECTORY = none ∨
      names u.nextName = none ∧ names PRODUCT_DIRECTORY = some (newRoot u.nextIdentity))
  | .rootReady | .auditPending | .done => Denotes names u.legacyName u.sourceIdentity ∧
    names PRODUCT_DIRECTORY = some (newRoot u.nextIdentity)

/-- The names of a record are made of its id, which has been drawn. -/
structure Named (drawn : List String) (r : MigrationStateRecord) : Prop where
  legacyName : r.legacyName = LEGACY_PREFIX ++ r.migrationId
  nextName : r.nextName = NEXT_PREFIX ++ r.migrationId
  drawn : r.migrationId ∈ drawn

/-- What a run is about: the object that was found under the name of the product, and the objects that
may be detached. -/
structure Setting where
  object : StorageObject
  detachable : StorageObjectIdentity → Prop

/-- What holds of the names whatever migration is under way; the object `i` has one name. -/
structure Base (i : StorageObjectIdentity) (names : Names) (drawn : List String)
    (records : List MigrationStateRecord) : Prop where
  once : ∀ n m o o', names n = some o → names m = some o' → o.identity = i → o'.identity = i → n = m
  fresh : ∀ id, id ∉ drawn → names (LEGACY_PREFIX ++ id) = none ∧ names (NEXT_PREFIX ++ id) = none
  named : ∀ r ∈ records, Named drawn r
  bootstrap : names BOOTSTRAP_DIRECTORY = none → records = []
  gone : ∀ r ∈ records, r.phase ≠ .prepared → Denotes names r.legacyName r.sourceIdentity

/-- **The invariant of the names.** -/
structure Layout (S : Setting) (names : Names) (drawn : List String)
    (records : List MigrationStateRecord) : Prop
    extends Base S.object.identity names drawn records where
  home : names PRODUCT_DIRECTORY = some S.object ∨
    ∃ r ∈ records, r.sourceIdentity = S.object.identity ∧ names r.legacyName = some S.object
  complete : openOf records = none →
    names PRODUCT_DIRECTORY = some S.object ∨ ∃ i, names PRODUCT_DIRECTORY = some (newRoot i)
  stands : ∀ u, openOf records = some u → Stands names u
  sources : ∀ r ∈ records, S.detachable r.sourceIdentity
  others : ∀ o, names PRODUCT_DIRECTORY = some o → ¬ o.IsRoot → S.detachable o.identity

section Layouts

variable {names : Names} {drawn drawn' : List String} {records : List MigrationStateRecord}
  {u r : MigrationStateRecord} {name a b id : String} {S : Setting} {o : StorageObject}
  {i : StorageObjectIdentity}

theorem openOf_concat : openOf (records ++ [r]) = if r.phase = .done then none else some r := by
  unfold openOf
  rw [List.getLast?_concat]
  by_cases hdone : r.phase = .done <;> simp [hdone, Option.filter]

theorem Denotes.congr {names' : Names} (h : Denotes names name i) (heq : names' name = names name) :
    Denotes names' name i := by
  unfold Denotes
  rwa [heq]

theorem Named.mono (h : Named drawn r) (hsub : drawn ⊆ drawn') : Named drawn' r :=
  ⟨h.legacyName, h.nextName, hsub h.drawn⟩

theorem Base.mono (h : Base i names drawn records) (hsub : drawn ⊆ drawn') :
    Base i names drawn' records where
  once := h.once
  fresh id hid := h.fresh id fun hmem => hid (hsub hmem)
  named r hr := (h.named r hr).mono hsub
  bootstrap := h.bootstrap
  gone := h.gone

theorem Layout.mono (h : Layout S names drawn records) (hsub : drawn ⊆ drawn') :
    Layout S names drawn' records where
  toBase := h.toBase.mono hsub
  home := h.home
  complete := h.complete
  stands := h.stands
  sources := h.sources
  others := h.others

theorem Layout.product (h : Layout S names drawn records) (hopen : openOf records = none) :
    ∃ o, names PRODUCT_DIRECTORY = some o := by
  rcases h.complete hopen with h | ⟨i, h⟩
  · exact ⟨_, h⟩
  · exact ⟨_, h⟩

theorem mem_of_openOf (h : openOf records = some u) : u ∈ records :=
  List.mem_of_getLast? (openOf_eq_some.mp h).1

theorem Stands.prepared (h : Stands names r) (hphase : r.phase = .prepared) :
    names r.nextName = some (newRoot r.nextIdentity) ∧
      (Denotes names PRODUCT_DIRECTORY r.sourceIdentity ∧ names r.legacyName = none ∨
        names PRODUCT_DIRECTORY = none ∧ Denotes names r.legacyName r.sourceIdentity) := by
  rwa [Stands, hphase] at h

theorem Stands.detached (h : Stands names r) (hphase : r.phase = .detached) :
    Denotes names r.legacyName r.sourceIdentity ∧
      (names r.nextName = some (newRoot r.nextIdentity) ∧ names PRODUCT_DIRECTORY = none ∨
        names r.nextName = none ∧ names PRODUCT_DIRECTORY = some (newRoot r.nextIdentity)) := by
  rwa [Stands, hphase] at h

theorem Stands.ready (h : Stands names r) (hprepared : r.phase ≠ .prepared)
    (hdetached : r.phase ≠ .detached) : Denotes names r.legacyName r.sourceIdentity ∧
      names PRODUCT_DIRECTORY = some (newRoot r.nextIdentity) := by
  unfold Stands at h
  cases hp : r.phase with
  | prepared => exact absurd hp hprepared
  | detached => exact absurd hp hdetached
  | rootReady => rwa [hp] at h
  | auditPending => rwa [hp] at h
  | done => rwa [hp] at h

theorem Stands.legacy (h : Stands names r) (hphase : r.phase ≠ .prepared) :
    Denotes names r.legacyName r.sourceIdentity := by
  by_cases hdetached : r.phase = .detached
  · exact (h.detached hdetached).1
  · exact (h.ready hphase hdetached).1

/-- The object of an unfinished migration is under the name of the product, or detached. -/
theorem Stands.source (h : Stands names r) : Denotes names PRODUCT_DIRECTORY r.sourceIdentity ∨
    Denotes names r.legacyName r.sourceIdentity := by
  by_cases hphase : r.phase = .prepared
  · exact (h.prepared hphase).2.imp (·.1) (·.2)
  · exact .inr (h.legacy hphase)

/-! ## 3. Changes of the names -/

/-- Every name after a rename stands for a name before it. -/
theorem moved_some {n : String} {o' : StorageObject}
    (hn : Function.update (Function.update names a none) b (some o) n = some o') :
    (n = b ∧ o' = o) ∨ n ≠ b ∧ n ≠ a ∧ names n = some o' := by
  by_cases hnb : n = b
  · rw [hnb, Function.update_self] at hn
    exact .inl ⟨hnb, (Option.some.inj hn).symm⟩
  · rw [Function.update_of_ne hnb] at hn
    by_cases hna : n = a
    · rw [hna, Function.update_self] at hn
      cases hn
    · rw [Function.update_of_ne hna] at hn
      exact .inr ⟨hnb, hna, hn⟩

/-- An object gets another name, neither of which is the bootstrap directory's. -/
theorem Base.moved (h : Base i names drawn records) (ha : names a = some o) (hb : names b = none)
    (hsource : a = PRODUCT_DIRECTORY ∨ ∃ id, a = NEXT_PREFIX ++ id)
    (htarget : b = PRODUCT_DIRECTORY ∨ ∃ id ∈ drawn, b = LEGACY_PREFIX ++ id) :
    Base i (Function.update (Function.update names a none) b (some o)) drawn records := by
  have hne : a ≠ b := fun heq => by rw [heq, hb] at ha; cases ha
  have hlegacy : ∀ id, a ≠ LEGACY_PREFIX ++ id := by
    intro id heq
    rcases hsource with rfl | ⟨id', rfl⟩
    · exact legacy_ne_product heq.symm
    · exact legacy_ne_next heq.symm
  have hbootA : a ≠ BOOTSTRAP_DIRECTORY := by
    rcases hsource with rfl | ⟨id', rfl⟩
    · exact product_ne_bootstrap
    · exact next_ne_bootstrap
  have hbootB : b ≠ BOOTSTRAP_DIRECTORY := by
    rcases htarget with rfl | ⟨id', _, rfl⟩
    · exact product_ne_bootstrap
    · exact legacy_ne_bootstrap
  have hback := @moved_some names a b o
  constructor
  case once =>
    intro n m o₁ o₂ hn hm hid₁ hid₂
    rcases hback hn with ⟨hnb, rfl⟩ | ⟨hnb, hna, hnold⟩ <;>
      rcases hback hm with ⟨hmb, ho⟩ | ⟨hmb, hma, hmold⟩
    · rw [hnb, hmb]
    · exact absurd (h.once _ _ _ _ hmold ha hid₂ hid₁) hma
    · exact absurd (h.once _ _ _ _ hnold ha hid₁ (ho ▸ hid₂)) hna
    · exact h.once _ _ _ _ hnold hmold hid₁ hid₂
  case fresh =>
    intro id hid
    obtain ⟨hl, hx⟩ := h.fresh id hid
    have hother : ∀ n, n ≠ b → names n = none →
        Function.update (Function.update names a none) b (some o) n = none := by
      intro n hnb hn
      rw [Function.update_of_ne hnb]
      by_cases hna : n = a
      · rw [hna, Function.update_self]
      · rw [Function.update_of_ne hna, hn]
    refine ⟨hother _ ?_ hl, hother _ ?_ hx⟩
    · rcases htarget with rfl | ⟨id', hid', rfl⟩
      · exact legacy_ne_product
      · exact fun heq => hid (legacy_inj heq ▸ hid')
    · rcases htarget with rfl | ⟨id', _, rfl⟩
      · exact next_ne_product
      · exact fun heq => legacy_ne_next heq.symm
  case named => exact h.named
  case bootstrap =>
    rw [Function.update_of_ne hbootB.symm, Function.update_of_ne hbootA.symm]
    exact h.bootstrap
  case gone =>
    intro r hr hphase
    have hdenotes := h.gone r hr hphase
    refine hdenotes.congr ?_
    rw [(h.named r hr).legacyName] at hdenotes ⊢
    obtain ⟨o', ho', _⟩ := hdenotes
    rw [Function.update_of_ne, Function.update_of_ne (hlegacy _).symm]
    rintro rfl
    rw [hb] at ho'
    cases ho'

/-- A root is created or removed, under the name of a next root or of the bootstrap directory. -/
theorem Base.set (h : Base i names drawn records) {v : Option StorageObject}
    (hv : ∀ o, v = some o → ∃ k, o = newRoot k ∧ ∀ n o', names n = some o' → o'.identity ≠ k)
    (hname : (∃ id ∈ drawn, name = NEXT_PREFIX ++ id) ∨ name = BOOTSTRAP_DIRECTORY ∧ v ≠ none) :
    Base i (Function.update names name v) drawn records := by
  have hlegacy : ∀ id, LEGACY_PREFIX ++ id ≠ name := by
    intro id
    rcases hname with ⟨id', _, rfl⟩ | ⟨rfl, _⟩
    · exact legacy_ne_next
    · exact legacy_ne_bootstrap
  constructor
  case once =>
    intro n m o₁ o₂ hn hm hid₁ hid₂
    by_cases hnn : n = name <;> by_cases hmn : m = name
    · rw [hnn, hmn]
    · rw [hnn, Function.update_self] at hn
      rw [Function.update_of_ne hmn] at hm
      obtain ⟨k, rfl, hnew⟩ := hv o₁ hn
      exact absurd (hid₂.trans hid₁.symm) (hnew m o₂ hm)
    · rw [Function.update_of_ne hnn] at hn
      rw [hmn, Function.update_self] at hm
      obtain ⟨k, rfl, hnew⟩ := hv o₂ hm
      exact absurd (hid₁.trans hid₂.symm) (hnew n o₁ hn)
    · rw [Function.update_of_ne hnn] at hn
      rw [Function.update_of_ne hmn] at hm
      exact h.once _ _ _ _ hn hm hid₁ hid₂
  case fresh =>
    intro id hid
    obtain ⟨hl, hx⟩ := h.fresh id hid
    refine ⟨by rw [Function.update_of_ne (hlegacy id), hl], ?_⟩
    rw [Function.update_of_ne, hx]
    rcases hname with ⟨id', hid', rfl⟩ | ⟨rfl, _⟩
    · exact fun heq => hid (next_inj heq ▸ hid')
    · exact next_ne_bootstrap
  case named => exact h.named
  case bootstrap =>
    rcases hname with ⟨id', _, rfl⟩ | ⟨rfl, hsome⟩
    · rw [Function.update_of_ne next_ne_bootstrap.symm]
      exact h.bootstrap
    · rw [Function.update_self]
      exact fun hnone => absurd hnone hsome
  case gone =>
    intro r hr hphase
    refine (h.gone r hr hphase).congr ?_
    rw [(h.named r hr).legacyName, Function.update_of_ne (hlegacy _)]

/-! ## 4. The steps of a migration -/

/-- **A record is published** that the names fit. -/
theorem Layout.concat (h : Layout S names drawn records) (hnamed : Named drawn r)
    (hboot : names BOOTSTRAP_DIRECTORY ≠ none) (hstands : Stands names r)
    (hsource : S.detachable r.sourceIdentity) :
    Layout S names drawn (records ++ [r]) where
  once := h.once
  fresh := h.fresh
  named x hx := by
    rcases List.mem_append.mp hx with hx | hx
    · exact h.named x hx
    · rwa [List.mem_singleton.mp hx]
  bootstrap hnone := absurd hnone hboot
  gone x hx hphase := by
    rcases List.mem_append.mp hx with hx | hx
    · exact h.gone x hx hphase
    · rw [List.mem_singleton.mp hx] at hphase ⊢
      exact hstands.legacy hphase
  home := by
    rcases h.home with hproduct | ⟨x, hx, hsource, hlegacy⟩
    · exact .inl hproduct
    · exact .inr ⟨x, List.mem_append_left _ hx, hsource, hlegacy⟩
  complete hopen := by
    rw [openOf_concat] at hopen
    split at hopen
    · next hdone =>
      have hready := hstands.ready (by rw [hdone]; exact MigrationPhase.noConfusion)
        (by rw [hdone]; exact MigrationPhase.noConfusion)
      exact .inr ⟨_, hready.2⟩
    · cases hopen
  stands u hu := by
    rw [openOf_concat] at hu
    split at hu
    · cases hu
    · cases hu
      exact hstands
  sources x hx := by
    rcases List.mem_append.mp hx with hx | hx
    · exact h.sources x hx
    · rwa [List.mem_singleton.mp hx]
  others := h.others

/-- The object under the name of the product gets its detached name. -/
theorem Layout.detached (h : Layout S names drawn records) (hopen : openOf records = some u)
    (hphase : u.phase = .prepared) (hproduct : names PRODUCT_DIRECTORY = some o)
    (hsource : o.identity = u.sourceIdentity) :
    Layout S (Function.update (Function.update names PRODUCT_DIRECTORY none) u.legacyName (some o))
      drawn records := by
  have hnamed := h.named u (mem_of_openOf hopen)
  obtain ⟨hnext, ⟨_, hfree⟩ | ⟨hnone, _⟩⟩ := (h.stands u hopen).prepared hphase
  · have hlegacy : PRODUCT_DIRECTORY ≠ u.legacyName := by
      rw [hnamed.legacyName]
      exact legacy_ne_product.symm
    have hbase := h.toBase.moved hproduct hfree (.inl rfl)
      (.inr ⟨u.migrationId, hnamed.drawn, hnamed.legacyName⟩)
    have hgone : Function.update (Function.update names PRODUCT_DIRECTORY none) u.legacyName (some o)
        PRODUCT_DIRECTORY = none := by
      rw [Function.update_of_ne hlegacy, Function.update_self]
    refine ⟨hbase, .inr ?_, fun hnone => ?_, fun v hv => ?_, h.sources, fun o' ho' => ?_⟩
    · rcases h.home with hhome | ⟨r, hr, hid, hhome⟩
      · refine ⟨u, mem_of_openOf hopen, ?_, ?_⟩
        · rw [← hsource]
          exact congrArg StorageObject.identity (Option.some.inj (hproduct.symm.trans hhome))
        · rw [Function.update_self, ← hproduct, hhome]
      · refine ⟨r, hr, hid, ?_⟩
        rw [Function.update_of_ne, Function.update_of_ne, hhome]
        · rw [(h.named r hr).legacyName]
          exact legacy_ne_product
        · rintro heq
          rw [heq, hfree] at hhome
          cases hhome
    · rw [hnone] at hopen
      cases hopen
    · rw [hopen] at hv
      cases hv
      rw [Stands, hphase]
      refine ⟨?_, .inr ⟨hgone, o, Function.update_self .., hsource⟩⟩
      rw [Function.update_of_ne, Function.update_of_ne, hnext]
      · rw [hnamed.nextName]
        exact next_ne_product
      · rw [hnamed.nextName, hnamed.legacyName]
        exact legacy_ne_next.symm
    · rw [hgone] at ho'
      cases ho'
  · rw [hnone] at hproduct
    cases hproduct

/-- The next root gets the name of the product. -/
theorem Layout.activated (h : Layout S names drawn records) (hopen : openOf records = some u)
    (hphase : u.phase = .detached) (hnext : names u.nextName = some o) :
    Layout S (Function.update (Function.update names u.nextName none) PRODUCT_DIRECTORY (some o))
      drawn records := by
  have hnamed := h.named u (mem_of_openOf hopen)
  obtain ⟨hlegacy, ⟨hroot, hnone⟩ | ⟨hfree, _⟩⟩ := (h.stands u hopen).detached hphase
  · obtain rfl : newRoot u.nextIdentity = o := Option.some.inj (hroot.symm.trans hnext)
    have hbase := h.toBase.moved hnext hnone (.inr ⟨_, hnamed.nextName⟩) (.inl rfl)
    have hother : ∀ r ∈ records, Function.update (Function.update names u.nextName none)
        PRODUCT_DIRECTORY (some (newRoot u.nextIdentity)) r.legacyName = names r.legacyName := by
      intro r hr
      rw [(h.named r hr).legacyName, hnamed.nextName, Function.update_of_ne legacy_ne_product,
        Function.update_of_ne legacy_ne_next]
    refine ⟨hbase, .inr ?_, fun hnone => ?_, fun v hv => ?_, h.sources, fun o' ho' hroot => ?_⟩
    · rcases h.home with hhome | ⟨r, hr, hid, hhome⟩
      · rw [hnone] at hhome
        cases hhome
      · exact ⟨r, hr, hid, (hother r hr).trans hhome⟩
    · rw [hnone] at hopen
      cases hopen
    · rw [hopen] at hv
      cases hv
      rw [Stands, hphase]
      refine ⟨hlegacy.congr (hother u (mem_of_openOf hopen)), .inr ⟨?_, Function.update_self ..⟩⟩
      rw [Function.update_of_ne, Function.update_self]
      rw [hnamed.nextName]
      exact next_ne_product
    · rw [Function.update_self] at ho'
      cases ho'
      exact absurd (newRoot_isRoot _) hroot
  · rw [hfree] at hnext
    cases hnext

/-- A root comes or goes that no record is about yet. -/
theorem Layout.set (h : Layout S names drawn records) (hopen : openOf records = none)
    {v : Option StorageObject}
    (hv : ∀ o, v = some o → ∃ k, o = newRoot k ∧ ∀ n o', names n = some o' → o'.identity ≠ k)
    (hname : (∃ id ∈ drawn, name = NEXT_PREFIX ++ id) ∨ name = BOOTSTRAP_DIRECTORY ∧ v ≠ none) :
    Layout S (Function.update names name v) drawn records := by
  have hproduct : PRODUCT_DIRECTORY ≠ name := by
    rcases hname with ⟨id, _, rfl⟩ | ⟨rfl, _⟩
    · exact next_ne_product.symm
    · exact product_ne_bootstrap
  refine ⟨h.toBase.set hv hname, ?_, fun _ => ?_, fun u hu => ?_, h.sources, fun o ho => ?_⟩
  · rcases h.home with hhome | ⟨r, hr, hid, hhome⟩
    · exact .inl (by rw [Function.update_of_ne hproduct, hhome])
    · refine .inr ⟨r, hr, hid, ?_⟩
      rw [(h.named r hr).legacyName] at hhome ⊢
      rw [Function.update_of_ne, hhome]
      rcases hname with ⟨id, _, rfl⟩ | ⟨rfl, _⟩
      · exact legacy_ne_next
      · exact legacy_ne_bootstrap
  · rw [Function.update_of_ne hproduct]
    exact h.complete hopen
  · rw [hopen] at hu
    cases hu
  · rw [Function.update_of_ne hproduct] at ho
    exact h.others o ho

end Layouts

end WinProfile.Legacy
