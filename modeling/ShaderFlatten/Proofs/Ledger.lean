import ShaderFlatten.Proofs.Failure

/-!
# Ledgers and tables

What each operation on a ledger does to the four things that are read off it: the cache, the files asked
for, the reports and the failures in the log.  Reading a file is described by `Flatten.sourceAt`, the text
that the file would give, together with the ledger behind it.
-/

namespace ShaderFlatten

namespace Table

variable {α : Type}

theorem get?_insert (t : Table α) (n m : String) (a : α) :
    (t.insert n a).get? m = if n = m then some a else t.get? m := by
  fun_induction insert t n a with
  | case1 => simp [get?]
  | case2 b rest =>
    by_cases h : n = m <;> simp [get?, h]
  | case3 k b rest hk ih =>
    by_cases h : k = m
    · subst h
      simp [get?, Ne.symm hk]
    · simp [get?, h, ih]

end Table

namespace Ledger

/-- The failures in the log of a ledger. -/
def errors (l : Ledger) : List LogRecord := l.log.filter (·.level = .error)

@[simp] theorem cache_ofCache (cache : Table Text) : (ofCache cache).cache = cache := rfl
@[simp] theorem reads_ofCache (cache : Table Text) : (ofCache cache).reads = [] := rfl
@[simp] theorem reported_ofCache (cache : Table Text) : (ofCache cache).reported = [] := rfl
@[simp] theorem errors_ofCache (cache : Table Text) : (ofCache cache).errors = [] := rfl

@[simp] theorem cache_note (l : Ledger) (r : LogRecord) : (l.note r).cache = l.cache := rfl
@[simp] theorem reads_note (l : Ledger) (r : LogRecord) : (l.note r).reads = l.reads := rfl
@[simp] theorem reported_note (l : Ledger) (r : LogRecord) : (l.note r).reported = l.reported := rfl

@[simp] theorem errors_note (l : Ledger) (r : LogRecord) :
    (l.note r).errors = if r.level = .error then l.errors ++ [r] else l.errors := by
  by_cases h : r.level = .error <;> simp [errors, note, h]

@[simp] theorem cache_addRead (l : Ledger) (p : String) : (l.addRead p).cache = l.cache := rfl
@[simp] theorem reads_addRead (l : Ledger) (p : String) : (l.addRead p).reads = l.reads ++ [p] := rfl
@[simp] theorem reported_addRead (l : Ledger) (p : String) : (l.addRead p).reported = l.reported := rfl
@[simp] theorem errors_addRead (l : Ledger) (p : String) : (l.addRead p).errors = l.errors := rfl

section
variable (l : Ledger) (f : Failure) (path : String) (line : Option NumberedLine)

@[simp] theorem report_fst : (l.report f path line).1 = f.report path line := rfl
@[simp] theorem cache_report : (l.report f path line).2.cache = l.cache := rfl
@[simp] theorem reads_report : (l.report f path line).2.reads = l.reads := rfl

@[simp] theorem reported_report :
    (l.report f path line).2.reported = l.reported ++ [f.diagnostic path line] := rfl

@[simp] theorem errors_report :
    (l.report f path line).2.errors = l.errors ++ [failureRecord f path line] := by
  have h : (l.report f path line).2.errors = (l.note (failureRecord f path line)).errors := rfl
  have hlevel : (failureRecord f path line).level = .error := rfl
  rw [h, errors_note, if_pos hlevel]

end

end Ledger

namespace Flatten

/-- What reading the file at a place gives: its text, or what stands against it. -/
def sourceAt (s : Setting) (place : Place) : Except Cause Text :=
  match sizeObstacle s place with
  | some cause => .error cause
  | none => textAt s.disk place

/-- The ledger when a file has been asked for and, if its size is allowed, opened. -/
def askedFor (s : Setting) (place : Place) (l : Ledger) : Ledger :=
  match sizeObstacle s place with
  | some _ => l.addRead place.text
  | none => (l.addRead place.text).note ⟨.debug, logSource.files, "Reading " ++ place.text⟩

section
variable (s : Setting) (place : Place) (l : Ledger)

@[simp] theorem cache_askedFor : (askedFor s place l).cache = l.cache := by
  unfold askedFor
  split <;> rfl

@[simp] theorem reads_askedFor : (askedFor s place l).reads = l.reads ++ [place.text] := by
  unfold askedFor
  split <;> rfl

@[simp] theorem reported_askedFor : (askedFor s place l).reported = l.reported := by
  unfold askedFor
  split <;> rfl

@[simp] theorem errors_askedFor : (askedFor s place l).errors = l.errors := by
  unfold askedFor
  split <;> simp

end

/-- **Reading a file.**  The outcome is the one that `sourceAt` tells, and a cause is reported for the
whole file. -/
theorem readText_eq (s : Setting) (place : Place) (l : Ledger) :
    readText s place l =
      match sourceAt s place with
      | .error cause => failFile (askedFor s place l) cause place.text
      | .ok text => (.ok text, askedFor s place l) := by
  unfold readText sourceAt askedFor
  cases sizeObstacle s place with
  | some cause => rfl
  | none => cases textAt s.disk place <;> rfl

theorem readText_ok {s : Setting} {place : Place} {l l' : Ledger} {text : Text}
    (h : readText s place l = (.ok text, l')) :
    sourceAt s place = .ok text ∧ l' = askedFor s place l := by
  rw [readText_eq] at h
  cases hs : sourceAt s place with
  | error cause => simp [hs, failFile] at h
  | ok t =>
    simp only [hs, Prod.mk.injEq, Except.ok.injEq] at h
    exact ⟨by rw [h.1], h.2.symm⟩

theorem readText_error {s : Setting} {place : Place} {l l' : Ledger} {halt : Halt}
    (h : readText s place l = (.error halt, l')) :
    ∃ cause, sourceAt s place = .error cause ∧
      halt = .failed ((Failure.ofCause cause).report place.text none) ∧
      l' = ((askedFor s place l).report (.ofCause cause) place.text none).2 := by
  rw [readText_eq] at h
  cases hs : sourceAt s place with
  | error cause =>
    simp only [hs, failFile, Prod.mk.injEq, Except.error.injEq] at h
    exact ⟨cause, rfl, h.1.symm, h.2.symm⟩
  | ok t => simp [hs] at h

theorem sourceAt_origin {s : Setting} {place : Place} {cause : Cause}
    (h : sourceAt s place = .error cause) : cause.origin = .file := by
  unfold sourceAt at h
  split at h
  · next hobstacle =>
    cases h
    unfold sizeObstacle at hobstacle
    split at hobstacle
    · cases hobstacle
    · split at hobstacle
      · cases hobstacle
        rfl
      · split at hobstacle <;> cases hobstacle
        rfl
  · unfold textAt at h
    split at h
    · cases h
      rfl
    · split at h <;> cases h
      rfl

/-- A file gives a text if its size is allowed and its bytes, but for a mark in front, spell the text. -/
theorem sourceAt_eq_ok_iff {s : Setting} {place : Place} {text : Text} :
    sourceAt s place = .ok text ↔ sizeObstacle s place = none ∧
      ∃ content, s.disk.readBytes place.path = .ok content ∧
        Utf8.decode (Utf8.dropMark content.toList) = .ok text := by
  unfold sourceAt textAt
  cases sizeObstacle s place with
  | some cause => simp
  | none =>
    cases s.disk.readBytes place.path with
    | error fault => simp
    | ok content => cases hdecode : Utf8.decode (Utf8.dropMark content.toList) <;> simp [hdecode]

theorem readBytes_of_sourceAt {s : Setting} {place : Place} {text : Text}
    (h : sourceAt s place = .ok text) : ∃ content, s.disk.readBytes place.path = .ok content := by
  obtain ⟨-, content, hread, -⟩ := sourceAt_eq_ok_iff.mp h
  exact ⟨content, hread⟩

/-- A text that is not in the cache is stored without objection. -/
theorem store_new {key : String} {text : Text} {l : Ledger} (h : l.cache.get? key = none) :
    store key text l = (.ok (), { l with cache := l.cache.insert key text }) := by
  simp [store, h]

end Flatten

/-! ## ASCII files -/

namespace Utf8

theorem toList_loop (bytes : ByteArray) (i : Nat) (done : List UInt8) :
    ByteArray.toList.loop bytes i done = done.reverse ++ bytes.data.toList.drop i := by
  have hsize : bytes.data.toList.length = bytes.size := rfl
  induction hn : bytes.size - i generalizing i done with
  | zero =>
    rw [ByteArray.toList.loop, if_neg (by omega), List.drop_eq_nil_of_le (by omega), List.append_nil]
  | succ n ih =>
    have hlt : i < bytes.data.toList.length := by omega
    have hget : bytes.get! i = bytes.data.toList[i] := getElem!_pos bytes.data i hlt
    rw [ByteArray.toList.loop, if_pos (by omega), ih (i + 1) _ (by omega), hget,
      List.drop_eq_getElem_cons hlt, List.reverse_cons, List.append_assoc, List.singleton_append]

theorem toList_toByteArray (bytes : List UInt8) : bytes.toByteArray.toList = bytes := by
  rw [ByteArray.toList, toList_loop, List.toList_data_toByteArray]
  rfl

/-- The byte of an ASCII character. -/
def asciiByte (c : Char) : UInt8 := UInt8.ofNat c.toNat

/-- The bytes of an ASCII text. -/
def ascii (t : Text) : ByteArray := (t.map asciiByte).toByteArray

theorem toNat_asciiByte {c : Char} (h : c.toNat < 128) : (asciiByte c).toNat = c.toNat := by
  rw [asciiByte, UInt8.toNat_ofNat', Nat.mod_eq_of_lt (by omega)]

theorem next?_ascii {c : Char} (h : c.toNat < 128) (start : Nat) (rest : List UInt8) :
    next? start (asciiByte c) rest = .ok (c, rest) := by
  have hnat := toNat_asciiByte h
  have hlead : lead? (asciiByte c) = some (c.toNat, []) := by
    have hlt : asciiByte c < 0x80 := by
      rw [UInt8.lt_iff_toNat_lt, hnat]
      exact h
    rw [lead?, if_pos hlt, hnat]
  rw [next?, hlead]
  simp only [continue?, Char.ofNat_toNat]

theorem decodeFrom_ascii {t : Text} (h : ∀ c ∈ t, c.toNat < 128) (start : Nat) (done : Text) :
    decodeFrom start done (t.map asciiByte) = .ok (done.reverse ++ t) := by
  induction t generalizing start done with
  | nil => rw [List.map_nil, decodeFrom, List.append_nil]
  | cons c t ih =>
    rw [List.map_cons, decodeFrom]
    split
    · next refusal heq =>
      rw [next?_ascii (h c List.mem_cons_self)] at heq
      cases heq
    · next c' rest heq =>
      rw [next?_ascii (h c List.mem_cons_self)] at heq
      cases heq
      rw [ih fun c hc => h c (List.mem_cons_of_mem _ hc), List.reverse_cons, List.append_assoc,
        List.singleton_append]

theorem dropMark_ascii {t : Text} (h : ∀ c ∈ t, c.toNat < 128) :
    dropMark (t.map asciiByte) = t.map asciiByte := by
  unfold dropMark
  split
  · next heq =>
    exfalso
    cases t with
    | nil => cases heq
    | cons c t =>
      have hc := h c List.mem_cons_self
      have hnat : (asciiByte c).toNat = 239 := congrArg UInt8.toNat (List.cons.inj heq).1
      rw [toNat_asciiByte hc] at hnat
      omega
  · rfl

/-- **An ASCII text is read as it was written.** -/
theorem decode_ascii {t : Text} (h : (t.all fun c => c.toNat < 128) = true) :
    decode (dropMark (ascii t).toList) = .ok t := by
  have hchars : ∀ c ∈ t, c.toNat < 128 := by simpa using h
  rw [ascii, toList_toByteArray, dropMark_ascii hchars, decode, decodeFrom_ascii hchars]
  rfl

end Utf8

theorem Flatten.sourceAt_ascii {s : Setting} {place : Place} {t : Text} (hlimit : s.readLimit = none)
    (hread : s.disk.readBytes place.path = .ok (Utf8.ascii t))
    (h : (t.all fun c => c.toNat < 128) = true) : sourceAt s place = .ok t := by
  simp only [sourceAt, sizeObstacle, hlimit, textAt, hread, Utf8.decode_ascii h]

end ShaderFlatten
