import PouchProv.Base64
import PouchProv.ForwardCompat
import Mathlib.Data.Bool.AllAny
import Mathlib.Data.List.Infix

/-!
# Certificates and keys as text

The device takes credentials in DER. The clients also take them in PEM: `Pem.toDer`
of the Kotlin and the Swift client removes the boundary lines and decodes the rest,
and `pem_to_der` of the command line leaves that to a library. `DeviceCert.pem`
writes what the Kotlin client has generated.

Decoders of Base64 and the readers of the Python library `cryptography` are outside
the repository.
-/

namespace Pem

open ForwardCompat (Client)

/-- Line feed, vertical tab, form feed and carriage return. -/
def isNewline (c : Char) : Bool := 10 ≤ c.toNat ∧ c.toNat ≤ 13

def isWhitespace (c : Char) : Bool := c = ' ' ∨ c = '\t' ∨ isNewline c

/-- `String(input, US_ASCII)`: what is not a character of ASCII is replaced. -/
def asciiText (input : Bytes) : List Char :=
  input.map fun b => if b < 128 then Char.ofNat b.toNat else '�'

def asciiBytes (text : List Char) : Bytes := text.map fun c => UInt8.ofNat c.toNat

def dashes : List Char := "-----".toList

/-- A DER sequence starts with `0x30`. -/
def startsLikePem (input : Bytes) (opening : List Char) : Bool :=
  input.head?.isSome ∧ input.head? ≠ some 0x30 ∧ "-----BEGIN".toList.isPrefixOf opening

namespace Kotlin

/-- The length of a match of `-----(BEGIN|END)[^-]*-----` at the start of a text. The class of the
middle part leaves no choice where it ends. -/
def pemLine (text : List Char) : Option Nat :=
  (["-----BEGIN".toList, "-----END".toList].find? (·.isPrefixOf text)).bind fun tag =>
    let name := (text.drop tag.length).takeWhile (· ≠ '-')
    if dashes.isPrefixOf (text.drop (tag.length + name.length)) then
      some (tag.length + name.length + dashes.length)
    else none

/-- `PEM_LINE.replace(text, "")`, with the characters of a match that are still to be left out. -/
def removeLines : Nat → List Char → List Char
  | _, [] => []
  | skip + 1, _ :: text => removeLines skip text
  | 0, c :: text =>
    match pemLine (c :: text) with
    | some n => removeLines (n - 1) text
    | none => c :: removeLines 0 text

def looksLikePem (input : Bytes) : Bool := startsLikePem input (asciiText (input.take 11))

def toDer (decode64 : List Char → Option Bytes) (input : Bytes) : Option Bytes :=
  if ¬ looksLikePem input then some input
  else decode64 ((removeLines 0 (asciiText input)).filter (!isWhitespace ·))

/-- The lines of the MIME encoder, with what is left of the current line. -/
def wrap (width : Nat) (separator : List Char) : Nat → List Char → List Char
  | _, [] => []
  | 0, c :: text => separator ++ c :: wrap width separator (width - 1) text
  | left + 1, c :: text => c :: wrap width separator left text

/-- `DeviceCert.pem` -/
def pem (type : String) (der : Bytes) : Bytes :=
  let body := wrap 64 ['\n'] 64 (Base64.encode der)
  asciiBytes ("-----BEGIN ".toList ++ type.toList ++ "-----\n".toList ++ body ++
    "\n-----END ".toList ++ type.toList ++ "-----\n".toList)

end Kotlin

namespace Swift

/-- `String(data:encoding: .ascii)` -/
def asciiString (input : Bytes) : Option (List Char) :=
  if input.all (· < 128) then some (asciiText input) else none

def looksLikePem (input : Bytes) : Bool :=
  startsLikePem input ((asciiString (input.take 11)).getD [])

def toDer (decode64 : List Char → Option Bytes) (input : Bytes) : Option Bytes :=
  if ¬ looksLikePem input then some input
  else
    match asciiString input with
    | none => none -- "PEM input is not ASCII"
    | some text =>
      let lines := (text.splitOnP isNewline).filter (!·.isEmpty)
      let base64 := (lines.filter (!dashes.isPrefixOf ·)).flatten.filter (!isWhitespace ·)
      decode64 base64

end Swift

/-- The libraries: Base64 of the platform, and the readers of `cryptography` for keys and for
certificates, which give the DER. -/
structure Libraries where
  decode64 : List Char → Option Bytes
  loadKey : Bytes → Option Bytes
  loadCertificate : Bytes → Option Bytes

/-- `bytes.lstrip` -/
def Python.lstrip (data : Bytes) : Bytes :=
  data.dropWhile fun b => b = 32 ∨ 9 ≤ b ∧ b ≤ 13

def Python.pemToDer (lib : Libraries) (data : Bytes) : Option Bytes :=
  let stripped := lstrip data
  if (asciiBytes "-----BEGIN".toList).isPrefixOf stripped then
    if (asciiBytes "PRIVATE KEY".toList) <:+: stripped.take 64 then lib.loadKey data
    else lib.loadCertificate data
  else some data

def toDer (lib : Libraries) (input : Bytes) : Client → Option Bytes
  | .python _ _ => Python.pemToDer lib input
  | .kotlin _ => Kotlin.toDer lib.decode64 input
  | .swift _ => Swift.toDer lib.decode64 input

def boundary (tag : String) (label : List Char) : List Char :=
  dashes ++ tag.toList ++ ' ' :: label ++ dashes

/-- A PEM file. Between the boundary lines stands a text that starts and ends with the end of a
line; with two characters for the end of a line, one of each pair belongs to the body. -/
structure File where
  label : List Char
  first : Char
  body : List Char
  last : Char
  after : List Char

def File.text (f : File) : List Char :=
  boundary "BEGIN" f.label ++ f.first :: (f.body ++ f.last :: (boundary "END" f.label ++ f.after))

/-- The file holds the data, in lines of any length. -/
structure File.Holds (f : File) (der : Bytes) : Prop where
  label : ∀ c ∈ f.label, c.toNat < 128 ∧ c ≠ '-' ∧ isNewline c = false
  first : isNewline f.first = true
  body : f.body.filter (!isNewline ·) = Base64.encode der
  last : isNewline f.last = true
  after : ∀ c ∈ f.after, isNewline c = true

/-- A character of the encoding, or the end of a line. -/
def Plain (c : Char) : Prop :=
  c.toNat < 128 ∧ c ≠ '-' ∧ (isWhitespace c = true → isNewline c = true)

lemma isNewline_plain {c : Char} (h : isNewline c = true) : Plain c := by
  have hrange : 10 ≤ c.toNat ∧ c.toNat ≤ 13 := by simpa [isNewline] using h
  refine ⟨by omega, ?_, fun _ => h⟩
  rintro rfl
  exact absurd hrange (by decide)

lemma encode_plain (der : Bytes) : ∀ c ∈ Base64.encode der, Plain c ∧ isNewline c = false := by
  refine Base64.forall_mem_encode ?_ ?_ der
  · have hall : ∀ n : Fin 64, (Base64.digit n).toNat < 128 ∧ Base64.digit n ≠ '-' ∧
        isWhitespace (Base64.digit n) = false ∧ isNewline (Base64.digit n) = false := by decide
    intro n hn
    obtain ⟨hascii, hdash, hspace, hline⟩ := hall ⟨n, hn⟩
    exact ⟨⟨hascii, hdash, fun h => absurd h (by simp [hspace])⟩, hline⟩
  · exact ⟨⟨by decide, by decide, by decide⟩, by decide⟩

section File

variable {f : File} {der : Bytes}

lemma File.Holds.plain (h : f.Holds der) : ∀ c ∈ f.body, Plain c := by
  intro c hc
  cases hline : isNewline c with
  | true => exact isNewline_plain hline
  | false =>
    have hmem : c ∈ f.body.filter (!isNewline ·) := List.mem_filter.mpr ⟨hc, by simp [hline]⟩
    rw [h.body] at hmem
    exact (encode_plain der c hmem).1

lemma filter_plain {text : List Char} (plain : ∀ c ∈ text, Plain c) :
    text.filter (!isWhitespace ·) = text.filter (!isNewline ·) := by
  refine List.filter_congr fun c hc => ?_
  cases hline : isNewline c with
  | true => simp [isWhitespace, hline]
  | false =>
    cases hspace : isWhitespace c with
    | false => rfl
    | true => exact absurd ((plain c hc).2.2 hspace) (by simp [hline])

lemma filter_newlines {text : List Char} (all : ∀ c ∈ text, isNewline c = true) :
    text.filter (!isNewline ·) = [] := by
  refine List.filter_eq_nil_iff.mpr fun c hc => ?_
  simp [all c hc]

lemma ascii_byte {c : Char} (h : c.toNat < 128) :
    UInt8.ofNat c.toNat < 128 ∧ Char.ofNat (UInt8.ofNat c.toNat).toNat = c := by
  have hbyte : (UInt8.ofNat c.toNat).toNat = c.toNat :=
    UInt8.toNat_ofNat_of_lt' (Nat.lt_trans h (by decide))
  refine ⟨?_, by rw [hbyte, Char.ofNat_toNat]⟩
  rw [UInt8.lt_iff_toNat_lt, hbyte]
  exact h

lemma asciiText_bytes {text : List Char} (ascii : ∀ c ∈ text, c.toNat < 128) :
    asciiText (asciiBytes text) = text := by
  induction text with
  | nil => rfl
  | cons c text ih =>
    obtain ⟨hlow, hsame⟩ := ascii_byte (ascii c List.mem_cons_self)
    have hrest := ih fun c h => ascii c (List.mem_cons_of_mem _ h)
    rw [asciiText, asciiBytes] at hrest ⊢
    simp only [List.map_cons, if_pos hlow, hsame, hrest]

lemma asciiString_bytes {text : List Char} (ascii : ∀ c ∈ text, c.toNat < 128) :
    Swift.asciiString (asciiBytes text) = some text := by
  have hall : (asciiBytes text).all (· < 128) = true := by
    simp only [asciiBytes, List.all_map, List.all_eq_true]
    intro c hc
    exact decide_eq_true (ascii_byte (ascii c hc)).1
  rw [Swift.asciiString, if_pos hall, asciiText_bytes ascii]

lemma boundary_ascii {tag : String} (htag : ∀ c ∈ tag.toList, c.toNat < 128)
    (h : f.Holds der) : ∀ c ∈ boundary tag f.label, c.toNat < 128 := by
  have hdashes : ∀ c ∈ dashes, c.toNat < 128 := List.all_iff_forall_prop.mp (by decide)
  intro c hc
  simp only [boundary, List.mem_append, List.mem_cons] at hc
  rcases hc with ((hc | hc) | rfl | hc) | hc
  · exact hdashes c hc
  · exact htag c hc
  · decide
  · exact (h.label c hc).1
  · exact hdashes c hc

lemma File.Holds.ascii (h : f.Holds der) : ∀ c ∈ f.text, c.toNat < 128 := by
  intro c hc
  simp only [File.text, List.mem_append, List.mem_cons] at hc
  rcases hc with hc | rfl | hc | rfl | hc | hc
  · exact boundary_ascii (List.all_iff_forall_prop.mp (by decide)) h c hc
  · exact (isNewline_plain h.first).1
  · exact (h.plain c hc).1
  · exact (isNewline_plain h.last).1
  · exact boundary_ascii (List.all_iff_forall_prop.mp (by decide)) h c hc
  · exact (isNewline_plain (h.after c hc)).1

/-- The first eleven characters are the same in all files. -/
lemma startsLikePem_file (f : File) :
    startsLikePem (asciiBytes f.text) (f.text.take 11) = true := rfl

lemma kotlin_looks (h : f.Holds der) : Kotlin.looksLikePem (asciiBytes f.text) = true := by
  have htake : (asciiBytes f.text).take 11 = asciiBytes (f.text.take 11) := List.map_take.symm
  rw [Kotlin.looksLikePem, htake,
    asciiText_bytes fun c hc => h.ascii c (List.mem_of_mem_take hc)]
  exact startsLikePem_file f

lemma swift_looks (h : f.Holds der) : Swift.looksLikePem (asciiBytes f.text) = true := by
  have htake : (asciiBytes f.text).take 11 = asciiBytes (f.text.take 11) := List.map_take.symm
  rw [Swift.looksLikePem, htake,
    asciiString_bytes fun c hc => h.ascii c (List.mem_of_mem_take hc)]
  exact startsLikePem_file f

lemma removeLines_skip (line text : List Char) :
    Kotlin.removeLines line.length (line ++ text) = Kotlin.removeLines 0 text := by
  induction line with
  | nil => rfl
  | cons c line ih => exact ih

lemma removeLines_plain {text : List Char} (plain : ∀ c ∈ text, c ≠ '-') (more : List Char) :
    Kotlin.removeLines 0 (text ++ more) = text ++ Kotlin.removeLines 0 more := by
  induction text with
  | nil => rfl
  | cons c text ih =>
    have hnone : Kotlin.pemLine (c :: (text ++ more)) = none := by
      have hdash := (plain c List.mem_cons_self).symm
      have hdiffers : ∀ tag : List Char, tag.head? = some '-' →
          tag.isPrefixOf (c :: (text ++ more)) = false := by
        intro tag htag
        cases tag with
        | nil => cases htag
        | cons d tag =>
          obtain rfl := Option.some.inj htag
          rw [List.isPrefixOf, beq_eq_false_iff_ne.mpr hdash, Bool.false_and]
      rw [Kotlin.pemLine, List.find?_cons, hdiffers "-----BEGIN".toList rfl, List.find?_cons,
        hdiffers "-----END".toList rfl]
      rfl
    rw [List.cons_append, Kotlin.removeLines, hnone, List.cons_append,
      ih fun c h => plain c (List.mem_cons_of_mem _ h)]

/-- The tags that the expression knows. -/
def Known (tag : String) : Prop :=
  ∀ text, ["-----BEGIN".toList, "-----END".toList].find?
    (·.isPrefixOf (dashes ++ tag.toList ++ text)) = some (dashes ++ tag.toList)

lemma pemLine_boundary {tag : String} (known : Known tag) {label : List Char}
    (plain : ∀ c ∈ label, c ≠ '-') (text : List Char) :
    Kotlin.pemLine (boundary tag label ++ text) = some (boundary tag label).length := by
  have htext : boundary tag label ++ text =
      dashes ++ tag.toList ++ ((' ' :: label) ++ (dashes ++ text)) := by
    simp [boundary]
  have hname : ((' ' :: label) ++ (dashes ++ text)).takeWhile (· ≠ '-') = ' ' :: label := by
    have hall : ∀ c ∈ ' ' :: label, decide (c ≠ '-') = true := by
      intro c hc
      rcases List.mem_cons.mp hc with rfl | hc
      · decide
      · exact decide_eq_true (plain c hc)
    rw [List.takeWhile_append_of_pos hall]
    exact List.append_nil _
  rw [htext, Kotlin.pemLine, known, Option.bind_some, List.drop_left, hname]
  dsimp only
  rw [← List.drop_drop, List.drop_left, List.drop_left,
    if_pos (List.isPrefixOf_iff_prefix.mpr ⟨text, rfl⟩)]
  simp only [boundary, List.length_append, List.length_cons]

lemma removeLines_boundary {tag : String} (known : Known tag) {label : List Char}
    (plain : ∀ c ∈ label, c ≠ '-') (text : List Char) :
    Kotlin.removeLines 0 (boundary tag label ++ text) = Kotlin.removeLines 0 text := by
  obtain ⟨line, hline⟩ : ∃ line, boundary tag label = '-' :: line := ⟨_, rfl⟩
  have hmatch := pemLine_boundary known plain text
  rw [hline] at hmatch ⊢
  rw [List.cons_append] at hmatch ⊢
  rw [Kotlin.removeLines, hmatch]
  exact removeLines_skip line text

lemma begin_known : Known "BEGIN" := fun _ => rfl

lemma end_known : Known "END" := fun _ => rfl

lemma removeLines_file (h : f.Holds der) :
    Kotlin.removeLines 0 f.text = f.first :: (f.body ++ f.last :: f.after) := by
  have hlabel : ∀ c ∈ f.label, c ≠ '-' := fun c hc => (h.label c hc).2.1
  have hbefore : ∀ c ∈ f.first :: (f.body ++ [f.last]), c ≠ '-' := by
    intro c hc
    simp only [List.mem_cons, List.mem_append, List.not_mem_nil, or_false] at hc
    rcases hc with rfl | hc | rfl
    · exact (isNewline_plain h.first).2.1
    · exact (h.plain c hc).2.1
    · exact (isNewline_plain h.last).2.1
  have hafter : ∀ c ∈ f.after, c ≠ '-' := fun c hc => (isNewline_plain (h.after c hc)).2.1
  have hrest := removeLines_plain hafter []
  rw [List.append_nil] at hrest
  calc Kotlin.removeLines 0 f.text
      = Kotlin.removeLines 0
          ((f.first :: (f.body ++ [f.last])) ++ (boundary "END" f.label ++ f.after)) := by
        rw [File.text, removeLines_boundary begin_known hlabel]
        simp
    _ = (f.first :: (f.body ++ [f.last])) ++ f.after := by
        rw [removeLines_plain hbefore, removeLines_boundary end_known hlabel, hrest]
        simp [Kotlin.removeLines]
    _ = f.first :: (f.body ++ f.last :: f.after) := by simp

theorem kotlin_toDer {decode64 : List Char → Option Bytes}
    (decodes : ∀ b, decode64 (Base64.encode b) = some b) (h : f.Holds der) :
    Kotlin.toDer decode64 (asciiBytes f.text) = some der := by
  have hplain : ∀ c ∈ f.first :: (f.body ++ f.last :: f.after), Plain c := by
    intro c hc
    simp only [List.mem_cons, List.mem_append] at hc
    rcases hc with rfl | hc | rfl | hc
    · exact isNewline_plain h.first
    · exact h.plain c hc
    · exact isNewline_plain h.last
    · exact isNewline_plain (h.after c hc)
  rw [Kotlin.toDer, kotlin_looks h, asciiText_bytes h.ascii, removeLines_file h,
    filter_plain hplain]
  simp only [List.filter_cons, List.filter_append, h.first, h.last, h.body,
    filter_newlines h.after, Bool.not_true, Bool.false_eq_true, if_false, not_true,
    List.append_nil]
  exact decodes der

/-- What is left of the lines. -/
def unlined (text : List Char) : List Char :=
  (((text.splitOnP isNewline).filter (!·.isEmpty)).filter (!dashes.isPrefixOf ·)).flatten

lemma unlined_append {c : Char} (newline : isNewline c = true) (before after : List Char) :
    unlined (before ++ c :: after) = unlined before ++ unlined after := by
  simp only [unlined, List.splitOnP_append_cons before after newline, List.filter_append,
    List.flatten_append]

lemma unlined_boundary {tag : String} (htag : ∀ c ∈ tag.toList, isNewline c = false)
    {label : List Char} (plain : ∀ c ∈ label, isNewline c = false) :
    unlined (boundary tag label) = [] := by
  have hdashes : ∀ c ∈ dashes, isNewline c = false := List.all_iff_forall_prop.mp (by decide)
  have hline : ∀ c ∈ boundary tag label, isNewline c = false := by
    intro c hc
    simp only [boundary, List.mem_append, List.mem_cons] at hc
    rcases hc with ((hc | hc) | rfl | hc) | hc
    · exact hdashes c hc
    · exact htag c hc
    · decide
    · exact plain c hc
    · exact hdashes c hc
  have hdash : dashes.isPrefixOf (boundary tag label) = true := by
    refine List.isPrefixOf_iff_prefix.mpr ⟨tag.toList ++ ' ' :: label ++ dashes, ?_⟩
    simp [boundary]
  have hempty : (boundary tag label).isEmpty = false := rfl
  rw [unlined, List.splitOnP_eq_singleton hline]
  simp [hempty, hdash]

lemma flatten_splitOnP (p : Char → Bool) (text : List Char) :
    (text.splitOnP p).flatten = text.filter (!p ·) := by
  induction text with
  | nil => rfl
  | cons c text ih =>
    rw [List.splitOnP_cons_eq_if_modifyHead]
    cases hc : p c with
    | true => simp [hc, ih]
    | false =>
      obtain ⟨line, lines, hlines⟩ := List.exists_cons_of_ne_nil (List.splitOnP_ne_nil p text)
      rw [hlines] at ih ⊢
      simp [hc, ← ih]

/-- Without a dash no line is left out. -/
lemma unlined_plain {text : List Char} (plain : ∀ c ∈ text, c ≠ '-') :
    unlined text = text.filter (!isNewline ·) := by
  have hkept : ∀ line ∈ (text.splitOnP isNewline).filter (!·.isEmpty),
      (!dashes.isPrefixOf line) = true := by
    intro line hline
    obtain ⟨hline, hsome⟩ := List.mem_filter.mp hline
    cases line with
    | nil => exact absurd hsome (by decide)
    | cons c line =>
      have hmem : c ∈ text.filter (!isNewline ·) := by
        rw [← flatten_splitOnP]
        exact List.mem_flatten.mpr ⟨_, hline, List.mem_cons_self⟩
      have hdash := (plain c (List.mem_filter.mp hmem).1).symm
      simp [dashes, List.isPrefixOf, hdash]
  rw [unlined, List.filter_eq_self.mpr hkept, List.flatten_filter_not_isEmpty, flatten_splitOnP]

lemma unlined_file (h : f.Holds der) : unlined f.text = Base64.encode der := by
  have hlabel : ∀ c ∈ f.label, isNewline c = false := fun c hc => (h.label c hc).2.2
  have hafter : unlined (boundary "END" f.label ++ f.after) = [] := by
    cases hrest : f.after with
    | nil =>
      rw [List.append_nil]
      exact unlined_boundary (List.all_iff_forall_prop.mp (by decide)) hlabel
    | cons c after =>
      have hall : ∀ x ∈ c :: after, isNewline x = true := hrest ▸ h.after
      have htail : ∀ x ∈ after, isNewline x = true := fun x hx =>
        hall x (List.mem_cons_of_mem _ hx)
      rw [unlined_append (hall c List.mem_cons_self),
        unlined_boundary (List.all_iff_forall_prop.mp (by decide)) hlabel,
        unlined_plain fun x hx => (isNewline_plain (htail x hx)).2.1, filter_newlines htail]
      rfl
  rw [File.text, unlined_append h.first,
    unlined_boundary (List.all_iff_forall_prop.mp (by decide)) hlabel,
    unlined_append h.last, hafter, unlined_plain fun c hc => (h.plain c hc).2.1, h.body]
  simp

theorem swift_toDer {decode64 : List Char → Option Bytes}
    (decodes : ∀ b, decode64 (Base64.encode b) = some b) (h : f.Holds der) :
    Swift.toDer decode64 (asciiBytes f.text) = some der := by
  have hfilter : (Base64.encode der).filter (!isWhitespace ·) = Base64.encode der := by
    rw [filter_plain fun c hc => (encode_plain der c hc).1]
    refine List.filter_eq_self.mpr fun c hc => ?_
    simp [(encode_plain der c hc).2]
  have hlines := unlined_file h
  rw [unlined] at hlines
  simp only [Swift.toDer, swift_looks h, asciiString_bytes h.ascii, hlines, hfilter, not_true,
    if_false]
  exact decodes der

end File

lemma filter_wrap {text : List Char} (plain : ∀ c ∈ text, isNewline c = false)
    (width left : Nat) :
    (Kotlin.wrap width ['\n'] left text).filter (!isNewline ·) = text := by
  induction text generalizing left with
  | nil => cases left <;> rfl
  | cons c text ih =>
    have hc := plain c List.mem_cons_self
    have hrest := ih fun c h => plain c (List.mem_cons_of_mem _ h)
    have hnewline : isNewline '\n' = true := by decide
    cases left with
    | zero => simp [Kotlin.wrap, hnewline, hc, hrest]
    | succ left => simp [Kotlin.wrap, hc, hrest]

def generated (type : String) (der : Bytes) : File where
  label := type.toList
  first := '\n'
  body := Kotlin.wrap 64 ['\n'] 64 (Base64.encode der)
  last := '\n'
  after := ['\n']

lemma pem_generated (type : String) (der : Bytes) :
    Kotlin.pem type der = asciiBytes (generated type der).text := by
  simp [Kotlin.pem, File.text, boundary, generated, dashes]

/-- Both phone clients read a PEM file in lines of any length, and with any end of line, as the
data that it holds. What the Kotlin client generates is such a file. A sequence in DER is taken as
it is. -/
theorem pem_round_trip {decode64 : List Char → Option Bytes}
    (decodes : ∀ b, decode64 (Base64.encode b) = some b) (der : Bytes) :
    (∀ f : File, f.Holds der → Kotlin.toDer decode64 (asciiBytes f.text) = some der ∧
      Swift.toDer decode64 (asciiBytes f.text) = some der) ∧
    (∀ type : String, (∀ c ∈ type.toList, c.toNat < 128 ∧ c ≠ '-' ∧ isNewline c = false) →
      ∃ f : File, Kotlin.pem type der = asciiBytes f.text ∧ f.Holds der) ∧
    (der.head? = some 0x30 →
      Kotlin.toDer decode64 der = some der ∧ Swift.toDer decode64 der = some der) := by
  refine ⟨fun f h => ⟨kotlin_toDer decodes h, swift_toDer decodes h⟩, ?_, ?_⟩
  · intro type label
    refine ⟨generated type der, pem_generated type der, label, rfl, ?_, rfl, ?_⟩
    · exact filter_wrap (fun c hc => (encode_plain der c hc).2) 64 64
    · simp only [generated, List.mem_singleton, forall_eq]
      decide
  · intro sequence
    have hstarts : ∀ opening, startsLikePem der opening = false := by
      intro opening
      simp [startsLikePem, sequence]
    constructor
    · rw [Kotlin.toDer, Kotlin.looksLikePem, hstarts]
      rfl
    · rw [Swift.toDer, Swift.looksLikePem, hstarts]
      rfl

/-- A key of three bytes in two lines, with two characters at the end of each line. -/
def windowsFile : File where
  label := "PRIVATE KEY".toList
  first := '\r'
  body := '\n' :: "MAE".toList ++ "\r\n".toList ++ "A".toList ++ ['\r']
  last := '\n'
  after := "\r\n".toList

theorem pem_round_trip_windows :
    Kotlin.toDer Base64.decode (asciiBytes windowsFile.text) = some [0x30, 0x01, 0x00] ∧
    Swift.toDer Base64.decode (asciiBytes (generated "CERTIFICATE" [0x30, 0x01, 0x00]).text) =
      some [0x30, 0x01, 0x00] := by
  obtain ⟨hfiles, hgenerated, -⟩ := pem_round_trip Base64.decode_encode [0x30, 0x01, 0x00]
  have hholds : windowsFile.Holds [0x30, 0x01, 0x00] :=
    ⟨List.all_iff_forall_prop.mp (by decide), by decide, by decide, by decide,
      List.all_iff_forall_prop.mp (by decide)⟩
  obtain ⟨f, hpem, hf⟩ := hgenerated "CERTIFICATE"
    (List.all_iff_forall_prop.mp (by decide))
  refine ⟨(hfiles windowsFile hholds).1, ?_⟩
  rw [← pem_generated, hpem]
  exact (hfiles f hf).2

end Pem
