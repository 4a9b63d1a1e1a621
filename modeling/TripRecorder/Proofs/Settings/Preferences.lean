import TripRecorder.Proofs.Json.Values
import TripRecorder.Settings.Preferences

/-!
# Preferences across restarts

A file of preferences is closed and opened again between calls. Texts are found as if they were in
memory all the time, and what is under a key that is not set stays, but for the floating-point words
in it: each time the file was written anew and opened again, a word becomes what its own text is
read as.

## Main definitions

* `PreferenceCall`, `PreferenceAnswer` — the calls, and what they answer
* `Preferences.act`, `Preferences.answers`, `Preferences.after` — one call, and a run of calls
* `Preferences.keysSet` — the keys a run of calls puts texts under
* `FilePreferences.Saved` — the file can be opened again

## Main results

* `FilePreferences.Saved.act` — one call answers as in memory, and leaves the file to be opened
* `FilePreferences.Saved.run` — a run of calls answers as in memory
* `FilePreferences.answers_load` — what the calls of a file that was opened answer, what stays in
  it, and that the identifier of the device is made up once
-/

namespace TripRecorder

/-- A call of preferences. -/
inductive PreferenceCall where
  | get (key : String)
  | set (key value : String)
  /-- The identifier of the device is asked for, and is `fresh` if there is none yet. -/
  | device (fresh : String)
  /-- The file is closed and opened again. -/
  | reopen
deriving DecidableEq, Repr

/-- What a call of preferences answers. -/
inductive PreferenceAnswer where
  | found (text : Option String)
  | done (result : Except SettingsError Unit)
  | identified (result : Except SettingsError String)

/-! ### Texts in memory -/

theorem lookup_putText (values : List (String × String)) (key value k : String) :
    (putText values key value).lookup k = if k = key then some value else values.lookup k := by
  rw [putText, Json.lookup_cons]
  split_ifs with hkey
  · rfl
  · -- The entries that are left out have another name.
    induction values with
    | nil => rfl
    | cons v rest ih =>
      obtain ⟨name, text⟩ := v
      rw [List.filter_cons, Json.lookup_cons]
      by_cases hname : name = key
      · subst hname
        rw [if_neg (by simp), if_neg hkey, ih]
      · rw [if_pos (by simpa using hname), Json.lookup_cons, ih]

namespace MemoryPreferences

theorem get?_set (m : MemoryPreferences) (key value k : String) :
    (m.set key value).get? k = if k = key then some value else m.get? k :=
  lookup_putText m.values key value k

end MemoryPreferences

namespace FilePreferences

variable {p q : FilePreferences} {m : MemoryPreferences}

theorem lookup_members_set (p : FilePreferences) (key value k : String) :
    (p.set key value).2.members.lookup k =
      if k = key then some (.string value) else p.members.lookup k := by
  have hmembers :
      (p.set key value).2.members = Json.insertMember key (.string value) p.members := by
    unfold set
    dsimp only
    split <;> rfl
  rw [hmembers, Json.lookup_insertMember]

theorem get?_set (p : FilePreferences) (key value k : String) :
    (p.set key value).2.get? k = if k = key then some value else p.get? k := by
  rw [get?, lookup_members_set]
  split_ifs <;> rfl

/-- The texts among the members. -/
def texts (p : FilePreferences) : List (String × String) :=
  p.members.filterMap fun m => m.2.text?.map fun text => (m.1, text)

theorem lookup_foldl_putText {members : List (String × Json)} (h : Json.Ascending members)
    (done : List (String × String)) (key : String) :
    ((members.filterMap fun m => m.2.text?.map fun text => (m.1, text)).foldl
        (fun done v => putText done v.1 v.2) done).lookup key =
      ((members.lookup key).bind Json.text?).or (done.lookup key) := by
  induction members generalizing done with
  | nil => rfl
  | cons first rest ih =>
    obtain ⟨name, v⟩ := first
    obtain ⟨hfirst, hrest⟩ := List.pairwise_cons.mp h
    -- No member behind it has its name.
    have hlater : rest.lookup name = none := by
      rw [List.lookup_eq_none_iff]
      intro m hm
      exact bne_iff_ne.mpr (ne_of_lt (hfirst m hm))
    rw [Json.lookup_cons]
    cases htext : v.text? with
    | none =>
      rw [List.filterMap_cons_none (by rw [htext]; rfl), ih hrest]
      split_ifs with hkey
      · rw [hkey, hlater, Option.bind_some, htext]
        rfl
      · rfl
    | some text =>
      rw [List.filterMap_cons_some (by rw [htext]; rfl), List.foldl_cons, ih hrest, lookup_putText]
      split_ifs with hkey
      · rw [hkey, hlater, Option.bind_some, htext]
        rfl
      · rfl

/-! ### Files that can be opened again -/

/-- The file can be opened again: it holds the members, or the text that was written for them. -/
structure Saved (p : FilePreferences) : Prop where
  readable : Json.Readable Json.Tree.depthLimit (.object p.members)
  stands : ∃ members, p.file.load [] members? = .ok members ∧
    (members = p.members ∨ members = Json.rereadMembers p.members)

theorem load_eq_ok_iff {file : TextFile} :
    load file = .ok p ↔ p.file = file ∧ file.load [] members? = .ok p.members := by
  obtain ⟨members, place⟩ := p
  unfold load
  cases file.load [] members? with
  | error e => exact ⟨nofun, fun h => nomatch h.2⟩
  | ok ms =>
    simp only [Except.map, Except.ok.injEq, mk.injEq]
    exact ⟨fun h => ⟨h.2.symm, h.1⟩, fun h => ⟨h.2, h.1.symm⟩⟩

/-- A file that can be opened is given by its preferences. -/
theorem exists_load (file : TextFile) (h : (load file).isOk = true) : ∃ p, load file = .ok p := by
  cases hload : load file with
  | ok p => exact ⟨p, rfl⟩
  | error e =>
    rw [hload] at h
    cases h

/-- The members that are read from a file are readable. -/
theorem readable_of_load {file : TextFile} {members : List (String × Json)}
    (h : file.load [] members? = .ok members) :
    Json.Readable Json.Tree.depthLimit (.object members) := by
  cases file with
  | absent =>
    obtain rfl : [] = members := Except.ok.inj h
    exact .object (by decide) Json.ascending_nil fun m hm => absurd hm List.not_mem_nil
  | text content =>
    rw [TextFile.load] at h
    split at h
    · rename_i ms hms
      obtain rfl : ms = members := Except.ok.inj h
      unfold members? at hms
      split at hms
      · rename_i others hparse
        obtain rfl : others = ms := Option.some.inj hms
        exact Json.readable_of_parse? hparse
      · cases hms
    · cases h
  | garbled => cases h
  | directory => cases h

theorem saved_of_load {file : TextFile} (h : load file = .ok p) : p.Saved := by
  obtain ⟨hfile, hmembers⟩ := load_eq_ok_iff.mp h
  exact ⟨readable_of_load hmembers, p.members, hfile ▸ hmembers, .inl rfl⟩

theorem Saved.ascending (h : p.Saved) : Json.Ascending p.members := by
  cases h.readable with
  | object _ hascending _ => exact hascending

/-- A file that was opened answers as its texts in memory do. -/
theorem Saved.get?_texts (h : p.Saved) (key : String) :
    p.get? key = (MemoryPreferences.ofList p.texts).get? key := by
  have hlookup := lookup_foldl_putText h.ascending [] key
  rw [MemoryPreferences.get?, MemoryPreferences.ofList, texts, hlookup, get?]
  cases (p.members.lookup key).bind Json.text? <;> rfl

/-- The text of readable members is read as the members with their words reread. -/
theorem members?_textOf {members : List (String × Json)}
    (h : Json.Readable Json.Tree.depthLimit (.object members)) :
    members? (textOf members) = some (Json.rereadMembers members) := by
  rw [members?, textOf, Json.parse?_pretty_of_readable h]
  rfl

/-- A text can be put under a key of a file that was opened, and the file can be opened again. -/
theorem Saved.set (h : p.Saved) (key value : String) :
    (p.set key value).1 = .ok () ∧ (p.set key value).2.Saved := by
  have hreadable : Json.Readable Json.Tree.depthLimit
      (.object (Json.insertMember key (.string value) p.members)) := by
    cases h.readable with
    | object hdepth hascending hmembers =>
      refine .object hdepth (hascending.insertMember key _) fun m hm => ?_
      rcases Json.mem_of_mem_insertMember hm with rfl | hm
      · exact .string value
      · exact hmembers m hm
  -- What was opened is no directory, so it can be written.
  have hwritten : p.file.write (textOf (Json.insertMember key (.string value) p.members)) =
      .ok (.text (textOf (Json.insertMember key (.string value) p.members))) := by
    obtain ⟨members, hload, -⟩ := h.stands
    cases hfile : p.file with
    | directory =>
      rw [hfile] at hload
      cases hload
    | absent => rfl
    | text content => rfl
    | garbled => rfl
  unfold FilePreferences.set
  dsimp only
  rw [hwritten]
  refine ⟨rfl, hreadable, _, ?_, .inr rfl⟩
  rw [TextFile.load, members?_textOf hreadable]

/-- A file that can be opened again is found with its members, or with their words reread. -/
theorem Saved.load (h : p.Saved) :
    ∃ q, FilePreferences.load p.file = .ok q ∧ q.Saved ∧
      (q.members = p.members ∨ q.members = Json.rereadMembers p.members) := by
  obtain ⟨members, hload, hmembers⟩ := h.stands
  have hq : FilePreferences.load p.file = .ok ⟨members, p.file⟩ := load_eq_ok_iff.mpr ⟨rfl, hload⟩
  exact ⟨⟨members, p.file⟩, hq, saved_of_load hq, hmembers⟩

/-! ### A file and what is in memory -/

/-- Under the key is what was under it, printed and read again at most so many times. -/
def KeepsUnder (times : Nat) (key : String) (p q : FilePreferences) : Prop :=
  ∃ k ≤ times, q.members.lookup key = (p.members.lookup key).map Json.reread^[k]

theorem KeepsUnder.refl (times : Nat) (key : String) (p : FilePreferences) :
    KeepsUnder times key p p :=
  ⟨0, Nat.zero_le _, Option.map_id'.symm⟩

theorem KeepsUnder.trans {times times' : Nat} {key : String} {r : FilePreferences}
    (h : KeepsUnder times key p q) (h' : KeepsUnder times' key q r) :
    KeepsUnder (times + times') key p r := by
  obtain ⟨k, hk, hq⟩ := h
  obtain ⟨k', hk', hr⟩ := h'
  refine ⟨k' + k, by omega, ?_⟩
  rw [hr, hq, Option.map_map, Function.iterate_add]

/-- A value whose words come back is found as it was. -/
theorem KeepsUnder.lookup_eq {times : Nat} {key : String} (h : KeepsUnder times key p q)
    {v : Json} (hv : p.members.lookup key = some v) (hwords : ∀ x ∈ v.words, x.reread = x) :
    q.members.lookup key = some v := by
  obtain ⟨k, -, hq⟩ := h
  rw [hq, hv, Option.map_some, Function.iterate_fixed (Json.reread_eq_self v hwords)]

/-- The file can be opened again, and its texts are found as they are in memory. -/
structure Mirrors (p : FilePreferences) (m : MemoryPreferences) : Prop where
  saved : p.Saved
  found : ∀ key, p.get? key = m.get? key

theorem mirrors_of_load {file : TextFile} (h : load file = .ok p) :
    p.Mirrors (.ofList p.texts) :=
  ⟨saved_of_load h, (saved_of_load h).get?_texts⟩

theorem Mirrors.set (h : p.Mirrors m) (key value : String) :
    (p.set key value).1 = .ok () ∧ (p.set key value).2.Mirrors (m.set key value) := by
  obtain ⟨hok, hsaved⟩ := h.saved.set key value
  refine ⟨hok, hsaved, fun k => ?_⟩
  rw [get?_set, MemoryPreferences.get?_set, h.found]

theorem keepsUnder_set (p : FilePreferences) {key k : String} (h : k ≠ key) (value : String) :
    KeepsUnder 0 k p (p.set key value).2 := by
  refine ⟨0, le_rfl, ?_⟩
  rw [lookup_members_set, if_neg h, Function.iterate_zero, Option.map_id_fun, id]

/-- A device that has an identifier keeps it. -/
theorem deviceId_of_some {id : String} (h : p.get? deviceKey = some id) (fresh : String) :
    p.deviceId fresh = (.ok id, p) := by
  rw [deviceId, h]

/-- The identifier of a device that has none is put under its key. -/
theorem deviceId_of_none (h : p.get? deviceKey = none) (fresh : String) :
    p.deviceId fresh =
      ((p.set deviceKey fresh).1.map fun _ => fresh, (p.set deviceKey fresh).2) := by
  rw [deviceId, h]
  dsimp only
  split
  · rename_i hset
    rw [hset]
    rfl
  · rename_i hset
    rw [hset]
    rfl

/-- Only a device without an identifier changes anything, and only under its key. -/
theorem keepsUnder_deviceId (p : FilePreferences) {k : String}
    (h : p.get? deviceKey = none → k ≠ deviceKey) (fresh : String) :
    KeepsUnder 0 k p (p.deviceId fresh).2 := by
  cases hid : p.get? deviceKey with
  | some id =>
    rw [deviceId_of_some hid]
    exact .refl 0 k p
  | none =>
    rw [deviceId_of_none hid]
    exact keepsUnder_set p (h hid) fresh

theorem Mirrors.deviceId (h : p.Mirrors m) (fresh : String) :
    (p.deviceId fresh).1 = .ok (m.deviceId fresh).1 ∧
      (p.deviceId fresh).2.Mirrors (m.deviceId fresh).2 := by
  rw [MemoryPreferences.deviceId, ← h.found deviceKey]
  cases hid : p.get? deviceKey with
  | some id =>
    rw [deviceId_of_some hid]
    exact ⟨rfl, h⟩
  | none =>
    obtain ⟨hok, hset⟩ := h.set deviceKey fresh
    rw [deviceId_of_none hid, hok]
    exact ⟨rfl, hset⟩

theorem Mirrors.load (h : p.Mirrors m) :
    ∃ q, FilePreferences.load p.file = .ok q ∧ q.Mirrors m ∧ ∀ key, KeepsUnder 1 key p q := by
  obtain ⟨q, hload, hsaved, hmembers⟩ := h.saved.load
  refine ⟨q, hload, ⟨hsaved, fun key => ?_⟩, fun key => ?_⟩
  · rw [← h.found, get?, get?]
    rcases hmembers with hmembers | hmembers
    · rw [hmembers]
    · rw [hmembers, Json.lookup_rereadMembers, Option.bind_map]
      -- Rereading a value keeps its text.
      exact congrArg (p.members.lookup key).bind (funext Json.text?_reread)
  · rcases hmembers with hmembers | hmembers
    · exact ⟨0, Nat.zero_le 1, hmembers ▸ Option.map_id'.symm⟩
    · exact ⟨1, le_rfl, hmembers ▸ Json.lookup_rereadMembers p.members key⟩

end FilePreferences

/-! ### Calls -/

namespace Preferences

/-- One call. What is in memory is not closed, and a file that cannot be opened stays as it was. -/
def act (p : Preferences) : PreferenceCall → PreferenceAnswer × Preferences
  | .get key => (.found (p.get? key), p)
  | .set key value =>
    let (result, p) := p.set key value
    (.done result, p)
  | .device fresh =>
    let (result, p) := p.deviceId fresh
    (.identified result, p)
  | .reopen =>
    match p with
    | memory m => (.done (.ok ()), memory m)
    | file f =>
      match FilePreferences.load f.file with
      | .ok f => (.done (.ok ()), file f)
      | .error e => (.done (.error e), file f)

/-- What a run of calls answers. -/
def answers (p : Preferences) : List PreferenceCall → List PreferenceAnswer
  | [] => []
  | c :: rest => (p.act c).1 :: answers (p.act c).2 rest

/-- What a run of calls leaves. -/
def after (p : Preferences) (calls : List PreferenceCall) : Preferences :=
  calls.foldl (fun p c => (p.act c).2) p

/-- The key a call puts a text under. -/
def keySet? (p : Preferences) : PreferenceCall → Option String
  | .set key _ => some key
  | .device _ => if (p.get? deviceKey).isNone then some deviceKey else none
  | _ => none

/-- The keys a run of calls puts texts under. -/
def keysSet (p : Preferences) : List PreferenceCall → List String
  | [] => []
  | c :: rest => (p.keySet? c).toList ++ keysSet (p.act c).2 rest

theorem after_cons (p : Preferences) (c : PreferenceCall) (rest : List PreferenceCall) :
    p.after (c :: rest) = (p.act c).2.after rest := rfl

theorem after_append (p : Preferences) (calls rest : List PreferenceCall) :
    p.after (calls ++ rest) = (p.after calls).after rest :=
  List.foldl_append

end Preferences

namespace FilePreferences

variable {p : FilePreferences} {m : MemoryPreferences}

/-- A call answers as in memory, opening the file again succeeds, and only the key that is set loses
its value. -/
theorem Mirrors.act (h : p.Mirrors m) (c : PreferenceCall) :
    ((Preferences.file p).act c).1 = ((Preferences.memory m).act c).1 ∧
      ∃ q n, ((Preferences.file p).act c).2 = .file q ∧
        ((Preferences.memory m).act c).2 = .memory n ∧ q.Mirrors n ∧
        ∀ key ∉ (Preferences.file p).keySet? c, KeepsUnder ([c].count .reopen) key p q := by
  cases c with
  | get key =>
    refine ⟨congrArg PreferenceAnswer.found (h.found key), p, m, rfl, rfl, h, fun k _ => ?_⟩
    exact .refl _ k p
  | set key value =>
    obtain ⟨hok, hset⟩ := h.set key value
    refine ⟨congrArg PreferenceAnswer.done hok, _, _, rfl, rfl, hset, fun k hk => ?_⟩
    exact keepsUnder_set p (fun hkey => hk (congrArg some hkey.symm)) value
  | device fresh =>
    obtain ⟨hok, hdevice⟩ := h.deviceId fresh
    refine ⟨congrArg PreferenceAnswer.identified hok, _, _, rfl, rfl, hdevice, fun k hk => ?_⟩
    refine keepsUnder_deviceId p (fun hid hkey => hk ?_) fresh
    rw [hkey]
    exact if_pos (Option.isNone_iff_eq_none.mpr hid)
  | reopen =>
    obtain ⟨q, hload, hq, hkeeps⟩ := h.load
    have hact : (Preferences.file p).act .reopen = (.done (.ok ()), .file q) := by
      rw [Preferences.act, hload]
    rw [hact]
    exact ⟨rfl, q, m, rfl, rfl, hq, fun k _ => hkeeps k⟩

/-- A run of calls answers as in memory, and only the keys that are set lose their values. -/
theorem Mirrors.run (h : p.Mirrors m) (calls : List PreferenceCall) :
    (Preferences.file p).answers calls = (Preferences.memory m).answers calls ∧
      ∃ q n, (Preferences.file p).after calls = .file q ∧
        (Preferences.memory m).after calls = .memory n ∧ q.Mirrors n ∧
        ∀ key ∉ (Preferences.file p).keysSet calls,
          KeepsUnder (calls.count .reopen) key p q := by
  induction calls generalizing p m with
  | nil => exact ⟨rfl, p, m, rfl, rfl, h, fun k _ => .refl 0 k p⟩
  | cons c rest ih =>
    -- How often a value is reread adds up over the calls.
    obtain ⟨hanswer, q, n, hq, hn, hmirrors, hkeeps⟩ := h.act c
    obtain ⟨hanswers, r, l, hr, hl, hlast, hrest⟩ := ih hmirrors
    refine ⟨?_, r, l, ?_, ?_, hlast, fun key hkey => ?_⟩
    · rw [Preferences.answers, Preferences.answers, hanswer, hq, hn, hanswers]
    · rw [Preferences.after_cons, hq, hr]
    · rw [Preferences.after_cons, hn, hl]
    · rw [Preferences.keysSet, hq, List.mem_append, not_or, Option.mem_toList] at hkey
      have hcount : ([c] ++ rest).count .reopen = [c].count .reopen + rest.count .reopen :=
        List.count_append
      rw [List.singleton_append] at hcount
      exact hcount ▸ (hkeeps key hkey.1).trans (hrest key hkey.2)

end FilePreferences

namespace MemoryPreferences

variable {m : MemoryPreferences} {id : String}

/-- The identifier of the device stays until another is put under its key. -/
theorem get?_after (h : m.get? deviceKey = some id) {calls : List PreferenceCall}
    (hcalls : ∀ value, .set deviceKey value ∉ calls) :
    ∃ n, (Preferences.memory m).after calls = .memory n ∧ n.get? deviceKey = some id := by
  induction calls generalizing m with
  | nil => exact ⟨m, rfl, h⟩
  | cons c rest ih =>
    have hrest : ∀ value, .set deviceKey value ∉ rest := fun value hvalue =>
      hcalls value (List.mem_cons_of_mem c hvalue)
    cases c with
    | get key => exact ih h hrest
    | set key value =>
      refine ih (m := m.set key value) ?_ hrest
      have hkey : deviceKey ≠ key := by
        rintro rfl
        exact hcalls value List.mem_cons_self
      rw [get?_set, if_neg hkey, h]
    | device fresh =>
      have hdevice : (m.deviceId fresh).2 = m := by rw [deviceId, h]
      refine ih (m := (m.deviceId fresh).2) ?_ hrest
      rw [hdevice, h]
    | reopen => exact ih h hrest

/-- Asking for the identifier of the device leaves it under its key. -/
theorem get?_deviceId (m : MemoryPreferences) (fresh : String) :
    (m.deviceId fresh).2.get? deviceKey = some (m.deviceId fresh).1 := by
  rw [deviceId]
  cases h : m.get? deviceKey with
  | some id => exact h
  | none => exact (m.get?_set deviceKey fresh deviceKey).trans (if_pos rfl)

end MemoryPreferences

namespace FilePreferences

variable {p : FilePreferences} {file : TextFile}

/-- A file of preferences that was opened: every run of calls, with the file opened again anywhere
in it, answers as the texts of the file in memory; what is under a key that was not set, and what
the file holds under it, is what was there, with its words reread at most as often as the file is
opened again; and an identifier of the device is answered until another is put under its key. -/
theorem answers_load (h : load file = .ok p) :
    (∀ calls, (Preferences.file p).answers calls =
      (Preferences.memory (.ofList p.texts)).answers calls) ∧
    (∀ calls, ∃ q r, (Preferences.file p).after calls = .file q ∧ load q.file = .ok r ∧
      ∀ key ∉ (Preferences.file p).keysSet calls,
        KeepsUnder (calls.count .reopen) key p q ∧
        KeepsUnder (calls.count .reopen + 1) key p r ∧
        ∀ v, p.members.lookup key = some v → (∀ x ∈ v.words, x.reread = x) →
          q.members.lookup key = some v ∧ r.members.lookup key = some v) ∧
    ∀ before between fresh fresh', (∀ value, .set deviceKey value ∉ between) → ∃ id,
      (((Preferences.file p).after before).act (.device fresh)).1 = .identified (.ok id) ∧
      (((Preferences.file p).after (before ++ .device fresh :: between)).act
        (.device fresh')).1 = .identified (.ok id) := by
  have hstart := mirrors_of_load h
  refine ⟨fun calls => (hstart.run calls).1, fun calls => ?_, ?_⟩
  · obtain ⟨-, q, n, hq, -, hmirrors, hkeeps⟩ := hstart.run calls
    obtain ⟨r, hr, -, hreread⟩ := hmirrors.load
    refine ⟨q, r, hq, hr, fun key hkey => ?_⟩
    have hheld := (hkeeps key hkey).trans (hreread key)
    exact ⟨hkeeps key hkey, hheld, fun v hv hwords =>
      ⟨(hkeeps key hkey).lookup_eq hv hwords, hheld.lookup_eq hv hwords⟩⟩
  · intro before between fresh fresh' hbetween
    -- Both identifiers are those of the preferences in memory.
    obtain ⟨-, q, n, hq, hn, hmirrors, -⟩ := hstart.run before
    obtain ⟨-, r, l, hr, hl, hlast, -⟩ := hmirrors.run (.device fresh :: between)
    obtain ⟨k, hk, hid⟩ := MemoryPreferences.get?_after (n.get?_deviceId fresh) hbetween
    obtain rfl : k = l := Preferences.memory.inj (hk.symm.trans hl)
    refine ⟨(n.deviceId fresh).1, ?_, ?_⟩
    · rw [hq]
      exact congrArg PreferenceAnswer.identified (hmirrors.deviceId fresh).1
    · rw [Preferences.after_append, hq, hr]
      refine congrArg PreferenceAnswer.identified ((hlast.deviceId fresh').1.trans ?_)
      rw [MemoryPreferences.deviceId, hid]

/-- A file with a text and a number: a device gets its identifier, and keeps it. -/
theorem answers_load_identifier : ∃ p,
    load (.text "\x7b\"s\":\"x\",\"n\":1.5\x7d") = .ok p ∧
      (Preferences.file p).answers [.device "0f", .reopen, .device "1e", .get "s"] =
        (Preferences.memory (.ofList p.texts)).answers
          [.device "0f", .reopen, .device "1e", .get "s"] ∧
      ∃ q, (Preferences.file p).after [.reopen] = .file q ∧ KeepsUnder 1 "n" p q := by
  obtain ⟨p, hp⟩ := exists_load (.text "\x7b\"s\":\"x\",\"n\":1.5\x7d") (by decide +kernel)
  obtain ⟨hanswers, hkept, -⟩ := answers_load hp
  obtain ⟨q, _, hq, -, hkeeps⟩ := hkept [.reopen]
  exact ⟨p, hp, hanswers _, q, hq, (hkeeps "n" List.not_mem_nil).1⟩

/-- The words under a key of preferences in a file. -/
def wordsUnder (key : String) : Preferences → List Double
  | .memory _ => []
  | .file p => ((p.members.lookup key).map Json.words).getD []

/-- A number that was never set is another one after a text was put under another key and the file
was opened again: it is written with all its digits, and reading them rounds twice. -/
theorem lookup_changes : ∃ p q,
    load (.text "\x7b\"n\":1e-30\x7d") = .ok p ∧
      (Preferences.file p).after [.set "a" "b", .reopen] = .file q ∧
      "n" ∉ (Preferences.file p).keysSet [.set "a" "b", .reopen] ∧
      q.members.lookup "n" ≠ p.members.lookup "n" := by
  obtain ⟨p, hp⟩ := exists_load (.text "\x7b\"n\":1e-30\x7d") (by decide +kernel)
  obtain ⟨-, q, -, hq, -⟩ := (mirrors_of_load hp).run [.set "a" "b", .reopen]
  refine ⟨p, q, hp, hq, by simp [Preferences.keysSet, Preferences.keySet?], fun hsame => ?_⟩
  have hwords : ((load (.text "\x7b\"n\":1e-30\x7d")).toOption.map fun p =>
      (wordsUnder "n" (.file p),
        wordsUnder "n" ((Preferences.file p).after [.set "a" "b", .reopen]))) =
      some ([⟨0x39B4484BFEEBC29F⟩], [⟨0x39B4484BFEEBC2A0⟩]) := by decide +kernel
  rw [hp, Except.toOption, Option.map_some, hq, wordsUnder, wordsUnder, hsame] at hwords
  have hboth := Prod.mk.inj (Option.some.inj hwords)
  exact absurd (hboth.1.symm.trans hboth.2) (by decide)

end FilePreferences

end TripRecorder
