import JavaSource.Proofs.Toml.Keys
import JavaSource.Settings

/-!
# Reading settings

What may stand in a settings file is said without reading it: `Accepted` holds of the entries that
are settings, and `Blamed` says of any other entry what is wrong with it and where.  Reading takes
one entry after the other, so a run over entries accepts them all or stops at the first that is
not accepted (`foldlM_withEntry`).

The reader of the file may be any that is lawful, and its complaints may be worded in any way.  As a
lawful reader hands the entries on in the order of their keys, the entry that is blamed has the least
key of all that are not accepted, and the order in the file makes no difference
(`outcome_ofDocument`).  `ofFile_decoded` collects what follows for a file.
-/

namespace JavaSource.Settings

/-! ## What may stand in a settings file -/

inductive IsIndent : Toml.Value → Indent → Prop
  | width {n : Nat} (hmin : 1 ≤ n) (hmax : n ≤ 8) : IsIndent (.integer n) (.spaces n)
  | tab : IsIndent (.string "tab") .tab

/-- A number that a byte can hold is taken for a width, any other one is not. -/
inductive BadIndent (reader : Toml.Reader) : Toml.Value → Problem → Prop
  | width {n : Int} (h : n = 0 ∨ 9 ≤ n ∧ n ≤ 255) : BadIndent reader (.integer n) (.badWidth n)
  | range {n : Int} (h : n < 0 ∨ 255 < n) :
      BadIndent reader (.integer n) (.reader (reader.noVariant "IndentValue"))
  | word {word : String} (h : word ≠ "tab") : BadIndent reader (.string word) (.badWord word)
  | kind {v : Toml.Value} (hinteger : ∀ n, v ≠ .integer n) (hstring : ∀ word, v ≠ .string word) :
      BadIndent reader v (.reader (reader.noVariant "IndentValue"))

inductive Accepted (e : Toml.Entry) : Prop
  | indent {indent : Indent} (hkey : e.key.text = "indent") (h : IsIndent e.value indent)
  | package {text : String} (hkey : e.key.text = "implicit_package") (h : e.value = .string text)

/-- A key that is no setting is wrong where the key stands, a bad value where the value stands. -/
inductive Blamed (reader : Toml.Reader) (e : Toml.Entry) : Problem → Toml.Span → Prop
  | unknownKey (hindent : e.key.text ≠ "indent") (hpackage : e.key.text ≠ "implicit_package") :
      Blamed reader e (.reader (reader.unknownKey e.key.text ["indent", "implicit_package"]))
        e.key.span
  | indent {problem : Problem} (hkey : e.key.text = "indent")
      (h : BadIndent reader e.value problem) : Blamed reader e problem e.span
  | package (hkey : e.key.text = "implicit_package") (h : ∀ text, e.value ≠ .string text) :
      Blamed reader e (.reader (reader.notText e.value.kind)) e.span

/-- What entries make of a field: it is what the entry with its key says, and stays as it was if
there is no such entry. -/
structure Sets {α : Type} (key : String) (Says : Toml.Value → α → Prop) (before : α)
    (entries : List Toml.Entry) (after : α) : Prop where
  said : ∀ e ∈ entries, e.key.text = key → Says e.value after
  kept : key ∉ Toml.keys entries → after = before

/-- The settings that entries make of others. -/
structure Given (before : Settings) (entries : List Toml.Entry) (after : Settings) : Prop where
  indent : Sets "indent" IsIndent before.indent entries after.indent
  package : Sets "implicit_package" (fun v text => v = .string text) before.implicitPackage
    entries after.implicitPackage

variable {reader : Toml.Reader} {s s' : Settings} {e e' : Toml.Entry} {v v' : Toml.Value}
  {fault : Fault}

/-! ## Values -/

theorem indentOf_integer (n : Int) :
    indentOf reader (.integer n) =
      if 1 ≤ n ∧ n ≤ 8 then .ok (.spaces n.toNat)
      else if 0 ≤ n ∧ n ≤ 255 then .error (.badWidth n)
      else .error (.reader (reader.noVariant "IndentValue")) := rfl

theorem indentOf_eq_ok_iff {indent : Indent} :
    indentOf reader v = .ok indent ↔ IsIndent v indent := by
  constructor
  · intro h
    cases v with
    | integer n =>
      rw [indentOf_integer] at h
      split at h
      · cases h
        obtain ⟨k, rfl⟩ : ∃ k : Nat, n = k := Int.eq_ofNat_of_zero_le (by omega)
        rw [Int.toNat_natCast]
        exact .width (by omega) (by omega)
      · split at h <;> cases h
    | string word =>
      rw [indentOf] at h
      split at h
      · next hword =>
        cases h
        rw [hword]
        exact .tab
      · cases h
    | _ => cases h
  · intro h
    cases h with
    | @width n hmin hmax =>
      rw [indentOf_integer, if_pos (by omega), Int.toNat_natCast]
    | tab => rfl

theorem indentOf_eq_error_iff {problem : Problem} :
    indentOf reader v = .error problem ↔ BadIndent reader v problem := by
  constructor
  · intro h
    cases v with
    | integer n =>
      rw [indentOf_integer] at h
      split at h
      · cases h
      · split at h
        · cases h
          exact .width (by omega)
        · cases h
          exact .range (by omega)
    | string word =>
      rw [indentOf] at h
      split at h
      · cases h
      · next hword =>
        cases h
        exact .word hword
    | _ =>
      cases h
      exact .kind nofun nofun
  · intro h
    cases h with
    | width h => rw [indentOf_integer, if_neg (by omega), if_pos (by omega)]
    | range h => rw [indentOf_integer, if_neg (by omega), if_neg (by omega)]
    | word h => exact if_neg h
    | kind hinteger hstring =>
      cases v with
      | integer n => exact absurd rfl (hinteger n)
      | string word => exact absurd rfl (hstring word)
      | _ => rfl

theorem packageOf_eq_ok_iff {text : String} :
    packageOf reader v = .ok text ↔ v = .string text := by
  constructor
  · intro h
    cases v with
    | string t =>
      cases h
      rfl
    | _ => cases h
  · intro h
    rw [h, packageOf]

theorem packageOf_eq_error_iff {problem : Problem} :
    packageOf reader v = .error problem ↔
      (∀ text, v ≠ .string text) ∧ problem = .reader (reader.notText v.kind) := by
  constructor
  · intro h
    cases v with
    | string t => cases h
    | _ =>
      cases h
      exact ⟨nofun, rfl⟩
  · rintro ⟨hstring, rfl⟩
    cases v with
    | string t => exact absurd rfl (hstring t)
    | _ => rfl

/-! ## One entry -/

section blame

variable {α β : Type} {x : Except Problem α} {f : α → β} {span : Toml.Span}

theorem map_blame_eq_ok_iff {b : β} :
    (blame span x).map f = .ok b ↔ ∃ a, x = .ok a ∧ b = f a := by
  cases x with
  | ok a => simp [blame, Except.map, eq_comm]
  | error problem => simp [blame, Except.map]

theorem map_blame_eq_error_iff :
    (blame span x).map f = .error fault ↔
      ∃ problem, x = .error problem ∧ fault = .entry problem span := by
  cases x with
  | ok a => simp [blame, Except.map]
  | error problem => simp [blame, Except.map, eq_comm]

end blame

theorem withEntry_indent (hkey : e.key.text = "indent") :
    withEntry reader s e =
      (blame e.span (indentOf reader e.value)).map fun indent => { s with indent } := if_pos hkey

theorem withEntry_package (hkey : e.key.text = "implicit_package") :
    withEntry reader s e =
      (blame e.span (packageOf reader e.value)).map fun implicitPackage =>
        { s with implicitPackage } := by
  have hindent : e.key.text ≠ "indent" := by
    rw [hkey]
    decide
  exact (if_neg hindent).trans (if_pos hkey)

theorem withEntry_unknownKey (hindent : e.key.text ≠ "indent")
    (hpackage : e.key.text ≠ "implicit_package") :
    withEntry reader s e =
      .error (.entry (.reader (reader.unknownKey e.key.text ["indent", "implicit_package"]))
        e.key.span) :=
  (if_neg hindent).trans (if_neg hpackage)

theorem withEntry_eq_ok_iff :
    withEntry reader s e = .ok s' ↔
      (e.key.text = "indent" ∧ ∃ indent, IsIndent e.value indent ∧ s' = { s with indent }) ∨
      (e.key.text = "implicit_package" ∧ ∃ implicitPackage,
        e.value = .string implicitPackage ∧ s' = { s with implicitPackage }) := by
  by_cases hindent : e.key.text = "indent"
  · rw [withEntry_indent hindent, map_blame_eq_ok_iff]
    simp [hindent, indentOf_eq_ok_iff]
  · by_cases hpackage : e.key.text = "implicit_package"
    · rw [withEntry_package hpackage, map_blame_eq_ok_iff]
      simp [hpackage, packageOf_eq_ok_iff]
    · rw [withEntry_unknownKey hindent hpackage]
      simp [hindent, hpackage]

theorem exists_withEntry_eq_ok_iff : (∃ s', withEntry reader s e = .ok s') ↔ Accepted e := by
  simp only [withEntry_eq_ok_iff]
  constructor
  · rintro ⟨s', ⟨hkey, indent, h, -⟩ | ⟨hkey, text, h, -⟩⟩
    · exact .indent hkey h
    · exact .package hkey h
  · intro h
    cases h with
    | indent hkey h => exact ⟨_, Or.inl ⟨hkey, _, h, rfl⟩⟩
    | package hkey h => exact ⟨_, Or.inr ⟨hkey, _, h, rfl⟩⟩

theorem withEntry_eq_error_iff :
    withEntry reader s e = .error fault ↔
      ∃ problem span, Blamed reader e problem span ∧ fault = .entry problem span := by
  constructor
  · intro h
    by_cases hindent : e.key.text = "indent"
    · rw [withEntry_indent hindent, map_blame_eq_error_iff] at h
      obtain ⟨problem, hproblem, hfault⟩ := h
      exact ⟨problem, e.span, .indent hindent (indentOf_eq_error_iff.mp hproblem), hfault⟩
    · by_cases hpackage : e.key.text = "implicit_package"
      · rw [withEntry_package hpackage, map_blame_eq_error_iff] at h
        obtain ⟨problem, hproblem, hfault⟩ := h
        obtain ⟨hstring, rfl⟩ := packageOf_eq_error_iff.mp hproblem
        exact ⟨_, e.span, .package hpackage hstring, hfault⟩
      · rw [withEntry_unknownKey hindent hpackage] at h
        cases h
        exact ⟨_, _, .unknownKey hindent hpackage, rfl⟩
  · rintro ⟨problem, span, h, rfl⟩
    cases h with
    | unknownKey hindent hpackage => exact withEntry_unknownKey hindent hpackage
    | indent hkey h =>
      rw [withEntry_indent hkey, map_blame_eq_error_iff]
      exact ⟨_, indentOf_eq_error_iff.mpr h, rfl⟩
    | package hkey h =>
      rw [withEntry_package hkey, map_blame_eq_error_iff]
      exact ⟨_, packageOf_eq_error_iff.mpr ⟨h, rfl⟩, rfl⟩

theorem Blamed.not_accepted {problem : Problem} {span : Toml.Span}
    (h : Blamed reader e problem span) : ¬Accepted e := by
  intro haccepted
  have herror : withEntry reader standard e = .error (.entry problem span) :=
    withEntry_eq_error_iff.mpr ⟨problem, span, h, rfl⟩
  obtain ⟨s', hok⟩ : ∃ s', withEntry reader standard e = .ok s' :=
    exists_withEntry_eq_ok_iff.mpr haccepted
  cases herror.symm.trans hok

/-! ## A run over entries -/

variable {entries : List Toml.Entry}

/-- A run accepts all entries or stops at the first that is not accepted. -/
theorem foldlM_withEntry (reader : Toml.Reader) (entries : List Toml.Entry) (s : Settings) :
    (∃ s', entries.foldlM (withEntry reader) s = .ok s' ∧ ∀ e ∈ entries, Accepted e) ∨
      ∃ before e after problem span, entries = before ++ e :: after ∧
        (∀ accepted ∈ before, Accepted accepted) ∧ Blamed reader e problem span ∧
        entries.foldlM (withEntry reader) s = .error (.entry problem span) := by
  induction entries generalizing s with
  | nil => exact Or.inl ⟨s, rfl, by simp⟩
  | cons e entries ih =>
    rw [List.foldlM_cons]
    cases hstep : withEntry reader s e with
    | error fault =>
      obtain ⟨problem, span, hblamed, rfl⟩ := withEntry_eq_error_iff.mp hstep
      exact Or.inr ⟨[], e, entries, problem, span, rfl, by simp, hblamed, rfl⟩
    | ok next =>
      have haccepted : Accepted e := exists_withEntry_eq_ok_iff.mp ⟨next, hstep⟩
      rcases ih next with ⟨s', hrun, hall⟩ | ⟨before, b, after, problem, span, rfl, hall, hb, hrun⟩
      · exact Or.inl ⟨s', hrun, List.forall_mem_cons.mpr ⟨haccepted, hall⟩⟩
      · exact Or.inr ⟨e :: before, b, after, problem, span, rfl,
          List.forall_mem_cons.mpr ⟨haccepted, hall⟩, hb, hrun⟩

theorem exists_foldlM_eq_ok_iff :
    (∃ s', entries.foldlM (withEntry reader) s = .ok s') ↔ ∀ e ∈ entries, Accepted e := by
  rcases foldlM_withEntry reader entries s with
    ⟨s', hrun, hall⟩ | ⟨before, b, after, problem, span, rfl, -, hb, hrun⟩
  · exact iff_of_true ⟨s', hrun⟩ hall
  · refine iff_of_false (fun ⟨s', hok⟩ => ?_) fun hall => ?_
    · cases hrun.symm.trans hok
    · exact hb.not_accepted (hall b (by simp))

section field

variable {α : Type} {key : String} {Says : Toml.Value → α → Prop} {a b c : α}

theorem Sets.cons (hdistinct : Toml.Distinct (e :: entries)) (h : Sets key Says a [e] b)
    (hrest : Sets key Says b entries c) : Sets key Says a (e :: entries) c := by
  constructor
  · intro e' he' hkey
    rcases List.mem_cons.mp he' with rfl | he'
    · -- No later entry has this key, so the field stays as it is.
      have hnew : key ∉ Toml.keys entries := hkey ▸ (List.nodup_cons.mp hdistinct).1
      rw [hrest.kept hnew]
      exact h.said e' (by simp) hkey
    · exact hrest.said e' he' hkey
  · intro hnew
    rw [Toml.keys_cons, List.mem_cons, not_or] at hnew
    rw [hrest.kept hnew.2]
    exact h.kept (by simpa [Toml.keys] using hnew.1)

theorem Sets.other (a : α) (hkey : e.key.text ≠ key) : Sets key Says a [e] a :=
  ⟨by simpa using fun h => absurd h hkey, fun _ => rfl⟩

theorem Sets.own (a : α) (hkey : e.key.text = key) (h : Says e.value b) : Sets key Says a [e] b :=
  ⟨by simpa using fun _ => h, by simp [Toml.keys, hkey]⟩

theorem Sets.perm {entries' : List Toml.Entry} (h : Sets key Says a entries b)
    (hperm : entries.Perm entries') : Sets key Says a entries' b := by
  constructor
  · intro e he
    exact h.said e (hperm.mem_iff.mpr he)
  · intro hnew
    exact h.kept fun hkey => hnew ((hperm.map _).mem_iff.mp hkey)

end field

theorem given_of_withEntry (h : withEntry reader s e = .ok s') : Given s [e] s' := by
  rcases withEntry_eq_ok_iff.mp h with ⟨hkey, indent, hindent, rfl⟩ | ⟨hkey, text, htext, rfl⟩
  · exact ⟨.own _ hkey hindent, .other _ (by rw [hkey]; decide)⟩
  · exact ⟨.other _ (by rw [hkey]; decide), .own _ hkey htext⟩

theorem given_of_foldlM (hdistinct : Toml.Distinct entries)
    (h : entries.foldlM (withEntry reader) s = .ok s') : Given s entries s' := by
  induction entries generalizing s with
  | nil =>
    cases h
    exact ⟨⟨by simp, fun _ => rfl⟩, ⟨by simp, fun _ => rfl⟩⟩
  | cons e entries ih =>
    rw [List.foldlM_cons] at h
    cases hstep : withEntry reader s e with
    | error fault =>
      rw [hstep] at h
      cases h
    | ok next =>
      rw [hstep] at h
      have hfirst := given_of_withEntry hstep
      have hrest := ih (List.nodup_cons.mp hdistinct).2 h
      exact ⟨hfirst.indent.cons hdistinct hrest.indent,
        hfirst.package.cons hdistinct hrest.package⟩

/-! ## The order of keys -/

variable {document document' : Toml.Document}

theorem distinct_visit (hreader : reader.Lawful) (h : Toml.Distinct document) :
    Toml.Distinct (reader.visit document) :=
  ((hreader.perm document).map _).nodup_iff.mpr h

theorem exists_ofDocument_eq_ok_iff (hreader : reader.Lawful) :
    (∃ s, ofDocument reader document = .ok s) ↔ ∀ e ∈ document, Accepted e := by
  rw [ofDocument, exists_foldlM_eq_ok_iff]
  exact forall_congr' fun e => imp_congr (hreader.perm document).mem_iff Iff.rfl

theorem given_of_ofDocument (hreader : reader.Lawful) (hdistinct : Toml.Distinct document)
    (h : ofDocument reader document = .ok s) : Given standard document s := by
  have hgiven := given_of_foldlM (distinct_visit hreader hdistinct) h
  have hperm := hreader.perm document
  exact ⟨hgiven.indent.perm hperm, hgiven.package.perm hperm⟩

/-- The entry at fault has the least key of all that are not accepted. -/
theorem exists_blamed_of_ofDocument (hreader : reader.Lawful)
    (h : ofDocument reader document = .error fault) :
    ∃ e ∈ document, ∃ problem span, Blamed reader e problem span ∧
      (∀ other ∈ document, ¬Accepted other → e.key.text ≤ other.key.text) ∧
      fault = .entry problem span := by
  rcases foldlM_withEntry reader (reader.visit document) standard with
    ⟨s, hrun, -⟩ | ⟨before, e, after, problem, span, hentries, hall, hblamed, hrun⟩
  · cases h.symm.trans hrun
  · have hmem (other : Toml.Entry) : other ∈ before ++ e :: after ↔ other ∈ document := by
      rw [← hentries]
      exact (hreader.perm document).mem_iff
    have hsorted := hreader.ascending document
    rw [hentries] at hsorted
    refine ⟨e, (hmem e).mp (by simp), problem, span, hblamed, fun other hother hnot => ?_, ?_⟩
    · rcases List.mem_append.mp ((hmem other).mpr hother) with hbefore | hrest
      · exact absurd (hall other hbefore) hnot
      · rcases List.mem_cons.mp hrest with rfl | hafter
        · exact String.le_refl _
        · exact (List.pairwise_cons.mp (List.pairwise_append.mp hsorted).2.1).1 other hafter
    · cases h.symm.trans hrun
      rfl

/-! ## Other orders of the same entries -/

/-- What is left of an entry when it is moved to another place.  The entries inside a value remember
their places in the file, but nothing is told of them. -/
def content (e : Toml.Entry) : String × Toml.Kind := (e.key.text, e.value.kind)

/-- A result, but for the place of the fault. -/
def outcome (result : Except Fault Settings) : Except (Option String) Settings :=
  result.mapError Fault.detail?

theorem indentOf_congr (reader : Toml.Reader) (h : v.kind = v'.kind) :
    indentOf reader v = indentOf reader v' := by
  cases v <;> cases v' <;> cases h <;> rfl

theorem packageOf_congr (reader : Toml.Reader) (h : v.kind = v'.kind) :
    packageOf reader v = packageOf reader v' := by
  cases v <;> cases v' <;> cases h <;> rfl

theorem outcome_eq_ok_iff {result : Except Fault Settings} :
    outcome result = .ok s ↔ result = .ok s := by
  cases result <;> simp [outcome, Except.mapError]

theorem outcome_bind (x : Except Fault Settings) (f : Settings → Except Fault Settings) :
    outcome (x >>= f) = outcome x >>= fun s => outcome (f s) := by
  cases x <;> rfl

theorem outcome_map_blame {α : Type} (span span' : Toml.Span) (x : Except Problem α)
    (f : α → Settings) : outcome ((blame span x).map f) = outcome ((blame span' x).map f) := by
  cases x <;> rfl

theorem outcome_withEntry (h : content e = content e') (s : Settings) :
    outcome (withEntry reader s e) = outcome (withEntry reader s e') := by
  obtain ⟨hkey, hkind⟩ : e.key.text = e'.key.text ∧ e.value.kind = e'.value.kind := Prod.mk.inj h
  by_cases hindent : e.key.text = "indent"
  · rw [withEntry_indent hindent, withEntry_indent (hkey ▸ hindent), indentOf_congr reader hkind]
    exact outcome_map_blame _ _ _ _
  · by_cases hpackage : e.key.text = "implicit_package"
    · rw [withEntry_package hpackage, withEntry_package (hkey ▸ hpackage),
        packageOf_congr reader hkind]
      exact outcome_map_blame _ _ _ _
    · rw [withEntry_unknownKey hindent hpackage,
        withEntry_unknownKey (hkey ▸ hindent) (hkey ▸ hpackage), hkey]
      rfl

theorem outcome_foldlM {entries' : List Toml.Entry}
    (h : entries.map content = entries'.map content) (s : Settings) :
    outcome (entries.foldlM (withEntry reader) s)
      = outcome (entries'.foldlM (withEntry reader) s) := by
  induction entries generalizing entries' s with
  | nil =>
    rw [List.map_nil, eq_comm, List.map_eq_nil_iff] at h
    rw [h]
  | cons e entries ih =>
    obtain ⟨e', rest, rfl, he, hrest⟩ := List.map_eq_cons_iff.mp h.symm
    have hsteps : (fun next => outcome (entries.foldlM (withEntry reader) next)) =
        fun next => outcome (rest.foldlM (withEntry reader) next) :=
      funext fun next => ih hrest.symm next
    rw [List.foldlM_cons, List.foldlM_cons, outcome_bind, outcome_bind,
      outcome_withEntry he.symm, hsteps]

/-- Distinct keys leave only one ascending order. -/
theorem map_content_visit (hreader : reader.Lawful) (hdistinct : Toml.Distinct document')
    (hperm : (document.map content).Perm (document'.map content)) :
    (reader.visit document).map content = (reader.visit document').map content := by
  have hsorted (d : Toml.Document) :
      ((reader.visit d).map content).Pairwise fun a b => a.1 ≤ b.1 :=
    List.pairwise_map.mpr (hreader.ascending d)
  have hcontents :
      ((reader.visit document).map content).Perm ((reader.visit document').map content) :=
    ((hreader.perm document).map _).trans (hperm.trans ((hreader.perm document').map _).symm)
  have hkeys : (((reader.visit document').map content).map Prod.fst).Nodup := by
    rw [List.map_map]
    exact distinct_visit hreader hdistinct
  refine List.Perm.eq_of_pairwise ?_ (hsorted document) (hsorted document') hcontents
  intro a b ha hb hab hba
  exact List.inj_on_of_nodup_map hkeys (hcontents.mem_iff.mp ha) hb (String.le_antisymm hab hba)

theorem outcome_ofDocument (hreader : reader.Lawful) (hdistinct : Toml.Distinct document')
    (hperm : (document.map content).Perm (document'.map content)) :
    outcome (ofDocument reader document) = outcome (ofDocument reader document') :=
  outcome_foldlM (map_content_visit hreader hdistinct hperm) standard

/-! ## Files -/

variable {file text : String}

theorem ofText_of_some (h : reader.read? text = some document) :
    ofText reader text = ofDocument reader document := by
  rw [ofText, h]

theorem ofFile_eq_ok_iff : ofFile reader file text = .ok s ↔ ofText reader text = .ok s := by
  rw [ofFile]
  cases ofText reader text <;> simp

theorem ofFile_eq_error_iff {error : Error} :
    ofFile reader file text = .error error ↔
      ∃ fault, ofText reader text = .error fault ∧ error = .badSettings file fault := by
  rw [ofFile]
  cases ofText reader text <;> simp [eq_comm]

/-- What can be told of the settings of a file from the entries it holds. -/
structure Decoded (reader : Toml.Reader) (file text : String) (document : Toml.Document) :
    Prop where
  accepted : (∃ s, ofFile reader file text = .ok s) ↔ ∀ e ∈ document, Accepted e
  given : ∀ s, ofFile reader file text = .ok s → Given standard document s
  /-- The indentation is written as wide as it was asked for. -/
  written : ∀ s, ofFile reader file text = .ok s → ∀ e ∈ document, e.key.text = "indent" →
    (e.value = .string "tab" ∧ s.indent.text = "\t") ∨
      ∃ n : Nat, e.value = .integer n ∧ s.indent.text = String.ofList (List.replicate n ' ')
  refused : ∀ error, ofFile reader file text = .error error →
    ∃ e ∈ document, ∃ problem span, Blamed reader e problem span ∧
      (∀ other ∈ document, ¬Accepted other → e.key.text ≤ other.key.text) ∧
      error = .badSettings file (.entry problem span)
  /-- A file with the same entries in another order gives the same settings, or the same words for
  what is wrong. -/
  reordered : ∀ text' document', reader.read? text' = some document' →
    (document'.map content).Perm (document.map content) →
    (∀ s, ofFile reader file text' = .ok s ↔ ofFile reader file text = .ok s) ∧
      ∀ fault fault', ofFile reader file text = .error (.badSettings file fault) →
        ofFile reader file text' = .error (.badSettings file fault') → fault'.detail? = fault.detail?

theorem IsIndent.text_eq {indent : Indent} (h : IsIndent v indent) :
    (v = .string "tab" ∧ indent.text = "\t") ∨
      ∃ n : Nat, v = .integer n ∧ indent.text = String.ofList (List.replicate n ' ') := by
  cases h with
  | @width n hmin hmax =>
    have hwidth : max Indent.minWidth (min Indent.maxWidth n) = n := by
      show max 1 (min 8 n) = n
      omega
    exact Or.inr ⟨n, rfl, by rw [Indent.text, hwidth]⟩
  | tab => exact Or.inl ⟨rfl, rfl⟩

/-- Whichever lawful reader is used, the settings of a file are settled by its entries and not by
their order. -/
theorem ofFile_decoded {reader : Toml.Reader} (hreader : reader.Lawful) (file : String)
    {text : String} {document : Toml.Document} (h : reader.read? text = some document) :
    Decoded reader file text document := by
  have hdistinct := hreader.distinct h
  have hgiven (s : Settings) (hs : ofFile reader file text = .ok s) :
      Given standard document s := by
    rw [ofFile_eq_ok_iff, ofText_of_some h] at hs
    exact given_of_ofDocument hreader hdistinct hs
  constructor
  case accepted =>
    simp only [ofFile_eq_ok_iff, ofText_of_some h]
    exact exists_ofDocument_eq_ok_iff hreader
  case given => exact hgiven
  case written =>
    intro s hs e he hkey
    exact ((hgiven s hs).indent.said e he hkey).text_eq
  case refused =>
    intro error herror
    obtain ⟨fault, hfault, rfl⟩ := ofFile_eq_error_iff.mp herror
    rw [ofText_of_some h] at hfault
    obtain ⟨e, he, problem, span, hblamed, hleast, rfl⟩ :=
      exists_blamed_of_ofDocument hreader hfault
    exact ⟨e, he, problem, span, hblamed, hleast, rfl⟩
  case reordered =>
    intro text' document' h' hperm
    have hsame := outcome_ofDocument hreader hdistinct hperm
    rw [← ofText_of_some h, ← ofText_of_some h'] at hsame
    constructor
    · intro s
      rw [ofFile_eq_ok_iff, ofFile_eq_ok_iff, ← outcome_eq_ok_iff, hsame, outcome_eq_ok_iff]
    · intro fault fault' hfault hfault'
      obtain ⟨_, hfault, heq⟩ := ofFile_eq_error_iff.mp hfault
      obtain ⟨_, hfault', heq'⟩ := ofFile_eq_error_iff.mp hfault'
      cases heq
      cases heq'
      rw [hfault, hfault'] at hsame
      exact Except.error.inj hsame

/-- The standard reader is lawful.  Three entries are at fault here, of which the last has the least
key. -/
theorem ofFile_decoded_threeFaults :
    let text := "zeta = 1\nindent = 9\nimplicit_package = [2]\n"
    Toml.Reader.standard.Lawful ∧
      ∃ document, Toml.Reader.standard.read? text = some document ∧
        Toml.keys document = ["zeta", "indent", "implicit_package"] ∧
        Decoded .standard standardFile text document := by
  intro text
  have hread : (Toml.Reader.standard.read? text).map Toml.keys =
      some ["zeta", "indent", "implicit_package"] := by decide +kernel
  obtain ⟨document, h, hkeys⟩ := Option.map_eq_some_iff.mp hread
  exact ⟨Toml.Reader.lawful_standard, document, h, hkeys,
    ofFile_decoded Toml.Reader.lawful_standard standardFile h⟩

end JavaSource.Settings
