import LoxTokenizer.CommandLine.Flags
import LoxTokenizer.Proofs.Results

/-!
# The file among the arguments

The text of a file is looked at after it has been met, at the next argument that is known or at the
end. An empty one does not get past that, so the file of a run has a path that is not empty.

* `Flags.NamesFile`: the file of some flags is written by a text that is not empty.
* `Flags.Reading.Sound`: what holds of a reading, whatever has been read.
* **`Flags.Reading.sound_of_read`**: each argument keeps to that.
* **`Flags.namesFile_of_parse`**: the file among arguments that are read is named.
-/

namespace LoxTokenizer.Flags

/-- The file of some flags, if there is one, is written by a text that is not empty. -/
def NamesFile (flags : Flags) : Prop :=
  ∀ file, flags.file = some file → ∃ text, text ≠ "" ∧ file = .ofText text

namespace Reading

variable {r r' : Reading} {dashes : Prop} {text : String} {option : ValueFlag}
  {switch : SwitchFlag} {isLong : Bool}

/-- Whether a pending value is a file. -/
def awaitsFile : Option Pending → Bool
  | some (.file _) => true
  | _ => false

/-- **What holds of a reading**, where `dashes` says that two dashes alone have been among the
arguments. -/
structure Sound (dashes : Prop) (r : Reading) : Prop where
  /-- The file that is set is written by a text that is not empty. -/
  named : r.flags.NamesFile
  /-- A file has been met if one is set, or waits to be looked at. -/
  hasFile : r.hasFile = (r.flags.file.isSome || awaitsFile r.pending)
  /-- Two dashes alone are what makes all arguments files. -/
  filesOnly : r.filesOnly = true → dashes

theorem sound_start : start.Sound dashes where
  named _ h := nomatch h
  hasFile := rfl
  filesOnly h := nomatch h

namespace Sound

theorem withFlags (h : r.Sound dashes) {flags : Flags} (hfile : flags.file = r.flags.file) :
    Sound dashes { r with flags := flags } := by
  refine ⟨fun file hset => h.named file (hfile ▸ hset), ?_, h.filesOnly⟩
  rw [hfile]
  exact h.hasFile

theorem withPending (h : r.Sound dashes) {pending : Option Pending}
    (hpending : awaitsFile pending = awaitsFile r.pending) :
    Sound dashes { r with pending := pending } := by
  refine ⟨h.named, ?_, h.filesOnly⟩
  rw [hpending]
  exact h.hasFile

end Sound

/-! ## Steps -/

/-- An option sets flags, but not the file, and nothing else. -/
theorem eq_of_setOption (h : r.setOption option text = .ok r') :
    r' = { r with flags := r'.flags } ∧ r'.flags.file = r.flags.file := by
  unfold setOption at h
  cases option with
  | format =>
    dsimp only at h
    split at h
    · cases h
    · split at h
      · obtain rfl := Except.ok.inj h
        exact ⟨rfl, rfl⟩
      · cases h
  | config =>
    dsimp only at h
    split at h
    · cases h
    · split at h
      · cases h
      · obtain rfl := Except.ok.inj h
        exact ⟨rfl, rfl⟩

/-- So does a switch. -/
theorem eq_of_setSwitch (h : r.setSwitch switch isLong = .ok r') :
    r' = { r with flags := r'.flags } ∧ r'.flags.file = r.flags.file := by
  unfold setSwitch at h
  cases switch with
  | noTrivia | eof | quiet =>
    dsimp only at h
    split at h
    · cases h
    · obtain rfl := Except.ok.inj h
      exact ⟨rfl, rfl⟩
  | help | version => cases h

/-- After the look at the value that is pending, nothing is. -/
theorem eq_of_settle (h : r.settle = .ok r') :
    r' = { r with flags := r'.flags, pending := none } := by
  unfold settle at h
  dsimp only at h
  split at h
  · rw [← Except.ok.inj h]
  · cases h
  · rw [(eq_of_setOption h).1]
  · split at h
    · cases h
    · rw [← Except.ok.inj h]

namespace Sound

/-- The one step that sets a file looks at its text. -/
theorem settle (h : r.Sound dashes) (hr : r.settle = .ok r') : r'.Sound dashes := by
  unfold Reading.settle at hr
  dsimp only at hr
  split at hr
  · rename_i hpending
    rw [← Except.ok.inj hr]
    exact h.withPending (by rw [hpending])
  · cases hr
  · rename_i hpending
    obtain ⟨heq, hfile⟩ := eq_of_setOption hr
    rw [heq]
    exact (h.withPending (by rw [hpending]; rfl)).withFlags hfile
  · rename_i text hpending
    split at hr
    · cases hr
    · rename_i hempty
      have hmet : r.hasFile = true := by rw [h.hasFile, hpending, awaitsFile, Bool.or_true]
      rw [← Except.ok.inj hr]
      refine ⟨fun file hset => ⟨text, ?_, (Option.some.inj hset).symm⟩, hmet, h.filesOnly⟩
      rintro rfl
      exact hempty rfl

theorem setOption (h : r.Sound dashes) (hr : r.setOption option text = .ok r') :
    r'.Sound dashes := by
  obtain ⟨heq, hfile⟩ := eq_of_setOption hr
  rw [heq]
  exact h.withFlags hfile

theorem setSwitch (h : r.Sound dashes) (hr : r.setSwitch switch isLong = .ok r') :
    r'.Sound dashes := by
  obtain ⟨heq, hfile⟩ := eq_of_setSwitch hr
  rw [heq]
  exact h.withFlags hfile

theorem long (h : r.Sound dashes) {name : String} {attached : Option String}
    (hr : r.long name attached = .ok r') : r'.Sound dashes := by
  unfold Reading.long at hr
  split at hr
  · cases hr
  · obtain ⟨settled, hsettle, hset⟩ := exists_of_bind_eq_ok hr
    exact (h.settle hsettle).setOption hset
  · obtain ⟨settled, hsettle, rfl⟩ := exists_of_map_eq_ok hr
    exact (h.settle hsettle).withPending (by rw [eq_of_settle hsettle]; rfl)
  · cases hr
  · obtain ⟨settled, hsettle, hset⟩ := exists_of_bind_eq_ok hr
    exact (h.settle hsettle).setSwitch hset

theorem letter (h : r.Sound dashes) {c : Char} (hr : r.letter c = .ok r') : r'.Sound dashes := by
  unfold Reading.letter at hr
  split at hr
  · cases hr
  · obtain ⟨settled, hsettle, hset⟩ := exists_of_bind_eq_ok hr
    exact (h.settle hsettle).setSwitch hset

theorem file (h : r.Sound dashes) (hr : r.file text = .ok r') : r'.Sound dashes := by
  unfold Reading.file at hr
  split at hr
  · cases hr
  · obtain ⟨settled, hsettle, rfl⟩ := exists_of_map_eq_ok hr
    exact ⟨(h.settle hsettle).named, (Bool.or_true _).symm, (h.settle hsettle).filesOnly⟩

theorem plain (h : r.Sound dashes) (hr : r.plain text = .ok r') : r'.Sound dashes := by
  unfold Reading.plain at hr
  split at hr
  · rename_i hpending
    rw [← Except.ok.inj hr]
    exact h.withPending (by rw [hpending]; rfl)
  · exact h.file hr

/-- What each of some steps keeps to, all of them do. -/
theorem foldlM {α : Type} {read : Reading → α → Except Interruption Reading} {items : List α}
    (hread : ∀ item ∈ items, ∀ r r', Sound dashes r → read r item = .ok r' → Sound dashes r')
    (h : r.Sound dashes) (hr : items.foldlM read r = .ok r') : r'.Sound dashes := by
  induction items generalizing r with
  | nil =>
    obtain rfl := Except.ok.inj hr
    exact h
  | cons item items ih =>
    obtain ⟨between, hitem, hitems⟩ := exists_of_bind_eq_ok hr
    exact ih (fun item hmem => hread item (List.mem_cons_of_mem _ hmem))
      (hread item List.mem_cons_self r between h hitem) hitems

theorem argument (h : r.Sound dashes) (hdashes : text = "--" → dashes)
    (hr : r.argument text = .ok r') : r'.Sound dashes := by
  unfold Reading.argument at hr
  split at hr
  · exact h.file hr
  · split at hr
    · rename_i htext
      rw [← Except.ok.inj hr]
      exact ⟨h.named, h.hasFile, fun _ => hdashes (String.toList_inj.mp htext)⟩
    · exact h.long hr
    · exact foldlM (fun _ _ _ _ hbetween hletter => hbetween.letter hletter) h hr
    · exact h.plain hr

end Sound

/-- **Every reading is sound.** -/
theorem sound_of_read {arguments : List String}
    (h : arguments.foldlM argument start = .ok r) : r.Sound ("--" ∈ arguments) := by
  refine Sound.foldlM (fun text hmem between next hbetween hread => ?_) sound_start h
  exact hbetween.argument (fun htext => htext ▸ hmem) hread

end Reading

/-- **The file among arguments that are read** is written by a text that is not empty. -/
theorem namesFile_of_parse {arguments : List String} {flags : Flags}
    (h : parse arguments = .ok flags) : flags.NamesFile := by
  obtain ⟨r, hread, hflags⟩ := exists_of_bind_eq_ok h
  obtain ⟨settled, hsettle, rfl⟩ := exists_of_map_eq_ok hflags
  exact ((Reading.sound_of_read hread).settle hsettle).named

end LoxTokenizer.Flags
