import LoxTokenizer.CommandLine.FileRun
import LoxTokenizer.Proofs.Text.Utf8

/-!
# Writing to a handle that may give out

What a handle holds after some writes is told by the bytes alone. It takes them in order up to its
room, and the first byte that has none fails the write that it is in. How a text is cut into
pieces, and so how many writes it takes, makes no difference: a failure inside of a piece and one
between two of them leave the same handle.

* `Sink.HasRoom`, `Sink.grown`: the bytes fit, and the handle that has taken them.
* **`Sink.write_bind_write`**, **`Sink.writeAll_eq_write`**: writing in pieces is writing at once.
* `Sink.write_of_hasRoom`, `Sink.write_of_full`: a write that fits, and one that is cut short.
* `FileRun.run_unlimited`: a run over a file that scans, with a handle that never fails.
-/

namespace LoxTokenizer

namespace Sink

variable {s : Sink} {n k : Nat} {text : String} {bytes more : List UInt8}

/-! ## Growing -/

/-- A handle that has taken more bytes and more flushes, and failed none of them. -/
def grown (s : Sink) (bytes : List UInt8) (flushes : Nat) : Sink :=
  { s with taken := s.taken ++ bytes, flushes := s.flushes + flushes }

/-- There is room for some more bytes. -/
def HasRoom (s : Sink) (bytes : List UInt8) : Prop :=
  ∀ n, s.capacity = some n → (s.bytes ++ bytes).length ≤ n

@[simp] theorem bytes_grown (s : Sink) (bytes : List UInt8) (k : Nat) :
    (s.grown bytes k).bytes = s.bytes ++ bytes := by
  simp [Sink.bytes, grown]

@[simp] theorem capacity_grown (s : Sink) (bytes : List UInt8) (k : Nat) :
    (s.grown bytes k).capacity = s.capacity := rfl

@[simp] theorem flushes_grown (s : Sink) (bytes : List UInt8) (k : Nat) :
    (s.grown bytes k).flushes = s.flushes + k := rfl

@[simp] theorem badFlush_grown (s : Sink) (bytes : List UInt8) (k : Nat) :
    (s.grown bytes k).badFlush = s.badFlush := rfl

theorem ext_bytes {a b : Sink} (hbytes : a.bytes = b.bytes) (hcapacity : a.capacity = b.capacity)
    (hflushes : a.flushes = b.flushes) (hbad : a.badFlush = b.badFlush) : a = b := by
  obtain ⟨taken, capacity, flushes, badFlush⟩ := a
  obtain ⟨taken', capacity', flushes', badFlush'⟩ := b
  obtain rfl : taken = taken' := Array.toList_inj.mp hbytes
  cases hcapacity
  cases hflushes
  cases hbad
  rfl

theorem grown_grown (s : Sink) (bytes more : List UInt8) (j k : Nat) :
    (s.grown bytes j).grown more k = s.grown (bytes ++ more) (j + k) :=
  ext_bytes (by simp) rfl (Nat.add_assoc _ _ _) rfl

theorem grown_nil (s : Sink) : s.grown [] 0 = s :=
  ext_bytes (by simp) rfl rfl rfl

theorem hasRoom_grown_iff : (s.grown bytes k).HasRoom more ↔ s.HasRoom (bytes ++ more) := by
  simp [HasRoom]

theorem HasRoom.of_prefix (h : s.HasRoom more) (hp : bytes <+: more) : s.HasRoom bytes := by
  intro n hn
  have hlen := hp.length_le
  have hroom := h n hn
  simp only [List.length_append] at hroom ⊢
  omega

theorem hasRoom_of_unbounded (h : s.capacity = none) : s.HasRoom bytes := by
  intro n hn
  rw [h] at hn
  cases hn

theorem hasRoom_iff_of_capacity (h : s.capacity = some n) :
    s.HasRoom bytes ↔ (s.bytes ++ bytes).length ≤ n := by
  constructor
  · exact fun hroom => hroom n h
  · intro hle m hm
    rw [h] at hm
    cases hm
    exact hle

/-! ## One write and one flush -/

/-- Bytes fit where there is room for them. No bytes fit even in a handle that is over its room. -/
theorem fits_iff : s.fits bytes.length = true ↔ bytes = [] ∨ s.HasRoom bytes := by
  unfold fits
  cases hc : s.capacity with
  | none => exact iff_of_true rfl (Or.inr (hasRoom_of_unbounded hc))
  | some n =>
    have hsize : s.bytes.length = s.taken.size := rfl
    rw [hasRoom_iff_of_capacity hc, List.length_append, hsize]
    simp

theorem fits_eq_false_iff : s.fits bytes.length = false ↔ bytes ≠ [] ∧ ¬ s.HasRoom bytes := by
  rw [← Bool.not_eq_true, fits_iff, not_or]

theorem write_of_hasRoom (h : s.HasRoom (utf8 text)) :
    s.write text = .ok (s.grown (utf8 text) 0) :=
  write_of_fits (fits_iff.mpr (Or.inr h))

/-- **A write that does not fit** is taken as far as there is room. -/
theorem write_of_full (hc : s.capacity = some n) (hle : s.bytes.length ≤ n)
    (h : n < (s.bytes ++ utf8 text).length) :
    ∃ full, s.write text = .error full ∧ full.bytes = (s.bytes ++ utf8 text).take n := by
  have hfits : s.fits (utf8 text).length = false := by
    rw [fits_eq_false_iff, hasRoom_iff_of_capacity hc]
    refine ⟨?_, Nat.not_le.mpr h⟩
    intro hnil
    rw [hnil, List.append_nil] at h
    exact Nat.not_le.mpr h hle
  refine ⟨_, write_of_not_fits hfits, ?_⟩
  unfold room
  rw [hc, List.take_append, List.take_of_length_le hle]
  simp [Sink.bytes]

theorem flush_of_ne (h : s.badFlush ≠ some (s.flushes + 1)) : s.flush = .ok (s.grown [] 1) := by
  have hgrown : s.grown [] 1 = { s with flushes := s.flushes + 1 } :=
    ext_bytes (by simp [Sink.bytes, grown]) rfl rfl rfl
  rw [hgrown]
  exact if_neg h

/-- **A flush that fails** takes nothing away. -/
theorem flush_of_eq (h : s.badFlush = some (s.flushes + 1)) :
    ∃ full, s.flush = .error full ∧ full.bytes = s.bytes :=
  ⟨_, if_pos h, rfl⟩

/-! ## Writing in pieces -/

/-- What fits behind bytes that fit. -/
theorem fits_grown (more : List UInt8) (h : s.fits bytes.length = true) :
    (s.grown bytes 0).fits more.length = s.fits (bytes ++ more).length := by
  rw [Bool.eq_iff_iff, fits_iff, fits_iff, hasRoom_grown_iff]
  constructor
  · rintro (rfl | hroom)
    · rw [List.append_nil]
      exact fits_iff.mp h
    · exact Or.inr hroom
  · rintro (hnil | hroom)
    · exact Or.inl (List.append_eq_nil_iff.mp hnil).2
    · exact Or.inr hroom

theorem room_append_of_fits (more : List UInt8) (h : s.fits bytes.length = true) :
    s.room (bytes ++ more) = bytes ++ (s.grown bytes 0).room more := by
  unfold room
  rw [capacity_grown]
  cases hc : s.capacity with
  | none => rfl
  | some n =>
    have hsize : (s.grown bytes 0).taken.size = s.taken.size + bytes.length := by
      show (s.grown bytes 0).bytes.length = _
      rw [bytes_grown, List.length_append]
      rfl
    have htake : bytes.take (n - s.taken.size) = bytes := by
      rcases fits_iff.mp h with rfl | hroom
      · exact List.take_nil
      · have hle : s.taken.size + bytes.length ≤ n := by
          simpa [Sink.bytes] using hroom n hc
        exact List.take_of_length_le (by omega)
    dsimp only
    rw [hsize, List.take_append, htake, Nat.sub_sub]

theorem fits_append_of_not_fits (more : List UInt8) (h : s.fits bytes.length = false) :
    s.fits (bytes ++ more).length = false ∧ s.room (bytes ++ more) = s.room bytes := by
  obtain ⟨hne, hfull⟩ := fits_eq_false_iff.mp h
  constructor
  · refine fits_eq_false_iff.mpr ⟨?_, fun hroom => hfull (hroom.of_prefix ?_)⟩
    · exact fun hnil => hne (List.append_eq_nil_iff.mp hnil).1
    · exact List.prefix_append bytes more
  · unfold room
    cases hc : s.capacity with
    | none => exact absurd (hasRoom_of_unbounded hc) hfull
    | some n =>
      have hlt : n < s.taken.size + bytes.length := by
        simpa [hasRoom_iff_of_capacity hc, Sink.bytes] using hfull
      exact List.take_append_of_le_length (by omega)

/-- **Writing two texts in turn** is writing them at once, be it that both fit, that only the first
does, or that none does. -/
theorem write_bind_write (s : Sink) (a b : String) :
    ((s.write a).bind fun t => t.write b) = s.write (a ++ b) := by
  cases ha : s.fits (utf8 a).length with
  | false =>
    obtain ⟨hfits, hroom⟩ := fits_append_of_not_fits (utf8 b) ha
    rw [← utf8_append] at hfits hroom
    rw [write_of_not_fits ha, write_of_not_fits hfits, hroom]
    rfl
  | true =>
    have hfirst : s.write a = .ok (s.grown (utf8 a) 0) := write_of_fits ha
    have hsame := fits_grown (utf8 b) ha
    have hroom := room_append_of_fits (utf8 b) ha
    rw [← utf8_append] at hsame hroom
    rw [hfirst]
    show (s.grown (utf8 a) 0).write b = s.write (a ++ b)
    cases hb : (s.grown (utf8 a) 0).fits (utf8 b).length with
    | true =>
      rw [write_of_fits hb, write_of_fits (hsame ▸ hb), utf8_append]
      exact congrArg Except.ok (ext_bytes (by simp [Sink.bytes, grown]) rfl rfl rfl)
    | false =>
      rw [write_of_not_fits hb, write_of_not_fits (hsame ▸ hb), hroom]
      exact congrArg Except.error (ext_bytes (by simp [Sink.bytes, grown]) rfl rfl rfl)

/-- **Writing in pieces is writing at once**, where the handle gives out and where it does not. -/
theorem writeAll_eq_write (s : Sink) (texts : List String) :
    s.writeAll texts = s.write (String.join texts) := by
  induction texts generalizing s with
  | nil =>
    have hfits : s.fits (utf8 "").length = true := by
      unfold fits
      cases s.capacity <;> simp
    have hnone : s.write "" = .ok (s.grown (utf8 "") 0) := write_of_fits hfits
    rw [utf8_empty, grown_nil] at hnone
    exact hnone.symm
  | cons text texts ih =>
    have hcons : s.writeAll (text :: texts) = (s.write text).bind fun t => t.writeAll texts := rfl
    rw [hcons, String.join_cons, ← write_bind_write]
    exact congrArg (s.write text).bind (funext ih)

/-- A handle that never fails takes everything. -/
theorem writeAll_unlimited (texts : List String) :
    ∃ full, full.bytes = utf8 (String.join texts) ∧ unlimited.writeAll texts = .ok full := by
  refine ⟨_, bytes_grown unlimited _ 0, ?_⟩
  rw [writeAll_eq_write]
  exact write_of_hasRoom (hasRoom_of_unbounded rfl)

end Sink

/-! ## A run over a file, with a handle that never fails -/

namespace FileRun

theorem list_unlimited (settings : Settings) (file : Path) (tokens : List Token) :
    list settings .unlimited file tokens = ⟨.success, utf8 (String.join (settings.listing tokens)),
      if settings.quiet then "" else summary file tokens⟩ := by
  obtain ⟨full, hfull, hall⟩ := Sink.writeAll_unlimited (settings.listing tokens)
  unfold list
  rw [hall, ← hfull]

theorem run_unlimited {disk : Disk} {settings : Settings} {file : Path} {source : String}
    {tokens : List Token} (hread : disk.readText file = .ok source)
    (hscan : settings.scan source = .ok tokens) :
    run disk settings .unlimited file = ⟨.success, utf8 (String.join (settings.listing tokens)),
      if settings.quiet then "" else summary file tokens⟩ := by
  unfold run
  rw [hread]
  dsimp only
  rw [hscan]
  exact list_unlimited settings file tokens

end FileRun

end LoxTokenizer
