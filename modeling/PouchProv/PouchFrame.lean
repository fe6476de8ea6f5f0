import PouchProv.Readers

/-!
# Pouch framing in the clients

The block and entry parsers of `pouch.py`, `Pouch.kt` and `Pouch.swift`. The
three are the same but for the decoding of an entry's path, which is a parameter:
the Python and the Swift client refuse a path that is not UTF-8, the Kotlin client
never does.

A failure carries the message of the exception that the clients define, without
the value that a message may end in; `other` is any exception of a library or of
the language.
-/

namespace PouchFrame

open Bytes Readers

inductive Failure where
  | decode (msg : String)
  | saead (msg : String)
  | session (msg : String)
  | other
  deriving DecidableEq, Repr

structure Entry where
  path : String
  contentType : Nat
  data : Bytes
  deriving DecidableEq, Repr

structure RawBlock where
  streamId : Nat
  first : Bool
  last : Bool
  payload : Bytes
  deriving DecidableEq, Repr

/-- `BLOCK_ID_ENTRY` -/
def blockIdEntry : Nat := 0

/-- The stream of a block, from its id byte and `BLOCK_ID_MASK`. -/
def streamIdOf (idByte : UInt8) : Nat := (idByte &&& 0x1f).toNat

/-- One block: its size, which counts the id byte, the id byte and the payload. -/
def nextBlock : Bytes → Except Failure (RawBlock × Bytes)
  | s1 :: s0 :: idByte :: rest =>
    let size := ofBe [s1, s0]
    if size = 0 ∨ rest.length < size - 1 then .error (.decode "truncated block payload")
    else
      .ok (⟨streamIdOf idByte, idByte &&& 0x40 ≠ 0, idByte &&& 0x80 ≠ 0, rest.take (size - 1)⟩,
        rest.drop (size - 1))
  | _ => .error (.decode "truncated block header")

def splitBlocks (data : Bytes) : Except Failure (List RawBlock) :=
  readToEnd nextBlock .other data

def nextEntry (path : Bytes → Except Failure String) : Bytes → Except Failure (Entry × Bytes)
  | d1 :: d0 :: c1 :: c0 :: p :: rest =>
    let dataLen := ofBe [d1, d0]
    let pathLen := p.toNat
    if rest.length < pathLen + dataLen then .error (.decode "truncated entry")
    else
      match path (rest.take pathLen) with
      | .error e => .error e
      | .ok text =>
        .ok (⟨text, ofBe [c1, c0], (rest.drop pathLen).take dataLen⟩,
          (rest.drop pathLen).drop dataLen)
  | _ => .error (.decode "truncated entry header")

def parseEntryBlocks (path : Bytes → Except Failure String) (payloads : List Bytes) :
    Except Failure (List Entry) :=
  readToEnd (nextEntry path) .other payloads.flatten

/-- The payloads of the entry blocks; other streams are left out. -/
def entryPayloads (blocks : List RawBlock) : List Bytes :=
  (blocks.filter (·.streamId = blockIdEntry)).map RawBlock.payload

lemma nextBlock_consumes : Consumes nextBlock := by
  intro b a rest h
  unfold nextBlock at h
  split at h
  · simp only at h
    split at h
    · exact absurd h (by simp)
    · obtain ⟨-, rfl⟩ := Prod.mk.inj (Except.ok.inj h)
      simp only [List.length_drop, List.length_cons]
      omega
  · exact absurd h (by simp)

lemma nextEntry_consumes (path : Bytes → Except Failure String) : Consumes (nextEntry path) := by
  intro b a rest h
  unfold nextEntry at h
  split at h
  · simp only at h
    split at h
    · exact absurd h (by simp)
    · split at h
      · exact absurd h (by simp)
      · obtain ⟨-, rfl⟩ := Prod.mk.inj (Except.ok.inj h)
        simp only [List.length_drop, List.length_cons]
        omega
  · exact absurd h (by simp)

lemma nextEntry_stable (path : Bytes → Except Failure String) : Stable (nextEntry path) := by
  intro b a rest more h
  unfold nextEntry at h
  split at h
  · rename_i d1 d0 c1 c0 p tail
    simp only at h
    split at h
    · exact absurd h (by simp)
    · rename_i hlong
      have hpath : p.toNat ≤ tail.length := by omega
      have hdata : ofBe [d1, d0] ≤ (tail.drop p.toNat).length := by
        rw [List.length_drop]
        omega
      have hfits : ¬ (tail ++ more).length < p.toNat + ofBe [d1, d0] := by
        rw [List.length_append]
        omega
      simp only [List.cons_append, nextEntry, if_neg hfits, List.take_append_of_le_length hpath,
        List.drop_append_of_le_length hpath, List.take_append_of_le_length hdata,
        List.drop_append_of_le_length hdata]
      split at h
      · exact absurd h (by simp)
      · rename_i text htext
        obtain ⟨rfl, rfl⟩ := Prod.mk.inj (Except.ok.inj h)
        rfl
  · exact absurd h (by simp)

/-- Further payloads leave the entries as they are exactly when they are empty. -/
theorem parseEntryBlocks_append_eq_iff {path : Bytes → Except Failure String}
    {payloads more : List Bytes} {entries : List Entry}
    (h : parseEntryBlocks path payloads = .ok entries) :
    parseEntryBlocks path (payloads ++ more) = .ok entries ↔ more.flatten = [] := by
  rw [parseEntryBlocks, List.flatten_append]
  exact readToEnd_append_eq_iff (nextEntry_consumes path) (nextEntry_stable path) h

end PouchFrame
