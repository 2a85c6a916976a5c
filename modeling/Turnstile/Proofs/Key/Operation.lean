import Turnstile.Key.Operation

/-!
# Operations told apart by their keys

What is hashed for an operation is made of the token, the method and the path, each
behind its length, and for some methods of the digest of the body, which has no length
before it.  The frames are read back from the front, so the parts are found again, and
what follows the last of them is either nothing or a digest, which is not empty.  The
byte strings that two operations are hashed from are thus the same just when the
operations are, whatever the two schemes that the keys are made by, and with a digest
without collisions among these byte strings so are the keys.

Main results:

- Theorem `frames_append_inj`: as many frames, whatever follows them, are read back.
- Theorem `identity_eq_iff`: what is hashed tells the operations apart.
- Theorem `key_eq_iff`: the keys of two operations, and their locks, are the same just
  when the operations are.

Current gaps:

- The lengths of the parts are numbers of 64 bits, as the length of every text in the
  memory of a machine is.  A longer part would stand behind the last 64 bits of its
  length.
-/

namespace Turnstile

namespace KeyScheme

/-! ## Frames -/

/-- A part that stands behind its length is read back from the front. -/
theorem framed_append_inj {part part' rest rest' : Bytes} (hpart : part.length < UInt64.size)
    (hpart' : part'.length < UInt64.size) (h : framed part ++ rest = framed part' ++ rest') :
    part = part' ∧ rest = rest' := by
  have hsize : UInt64.size = Bytes.capacity 8 := rfl
  rw [hsize] at hpart hpart'
  simp only [framed, List.append_assoc] at h
  obtain ⟨hlengths, hafter⟩ := List.append_inj h (by simp)
  have hlength : part.length = part'.length := Bytes.bigEndian_inj hpart hpart' hlengths
  exact List.append_inj hafter hlength

/-- As many parts, each behind its length, are read back from the front. -/
theorem frames_append_inj {parts parts' : List Bytes} {rest rest' : Bytes}
    (hcount : parts.length = parts'.length) (hparts : ∀ part ∈ parts, part.length < UInt64.size)
    (hparts' : ∀ part ∈ parts', part.length < UInt64.size)
    (h : parts.flatMap framed ++ rest = parts'.flatMap framed ++ rest') :
    parts = parts' ∧ rest = rest' := by
  induction parts generalizing parts' with
  | nil =>
      cases parts' with
      | nil => exact ⟨rfl, h⟩
      | cons part' parts' => simp at hcount
  | cons part parts ih =>
      cases parts' with
      | nil => simp at hcount
      | cons part' parts' =>
          simp only [List.flatMap_cons, List.append_assoc] at h
          simp only [List.mem_cons, forall_eq_or_imp] at hparts hparts'
          obtain ⟨rfl, hrest⟩ := framed_append_inj hparts.1 hparts'.1 h
          obtain ⟨rfl, hlast⟩ := ih (by simpa using hcount) hparts.2 hparts'.2 hrest
          exact ⟨rfl, hlast⟩

/-! ## What is hashed for an operation -/

/-- The parts that stand behind their lengths in what is hashed. -/
def parts (token : String) (method : Http.Method) (path : String) : List Bytes :=
  [token, method.name, path].map Bytes.ofText

/-- Whether the lengths of the parts of an operation are numbers of 64 bits. -/
def IsMeasured (token : String) (method : Http.Method) (path : String) : Prop :=
  ∀ part ∈ parts token method path, part.length < UInt64.size

instance (token : String) (method : Http.Method) (path : String) :
    Decidable (IsMeasured token method path) :=
  inferInstanceAs (Decidable (∀ part ∈ parts token method path, _))

/-- What follows the frames: the digits of the digest of a body that takes part. -/
def bodyPart (scheme : KeyScheme) (method : Http.Method) (body : Option Bytes) : Bytes :=
  if scheme.hashesBody method then Bytes.ofText (bodyDigest (body.getD [])) else []

/-- The byte strings that are hashed for the key of an operation: the body, where it
takes part, and then the identity. -/
def hashed (scheme : KeyScheme) (token : String) (method : Http.Method) (path : String)
    (body : Option Bytes) : List Bytes :=
  if scheme.hashesBody method then [body.getD [], scheme.identity token method path body]
  else [scheme.identity token method path body]

/-- Whether no two of the byte strings share a digest. -/
def HasNoCollision (messages : List Bytes) : Prop :=
  ∀ a ∈ messages, ∀ b ∈ messages, Digest.Sha256.digest a = Digest.Sha256.digest b → a = b

instance (messages : List Bytes) : Decidable (HasNoCollision messages) :=
  inferInstanceAs (Decidable (∀ a ∈ messages, ∀ b ∈ messages, _ → _))

section Operations

variable {scheme scheme' : KeyScheme} {token token' path path' : String}
  {method method' : Http.Method} {body body' : Option Bytes}

theorem identity_eq :
    scheme.identity token method path body =
      (parts token method path).flatMap framed ++ scheme.bodyPart method body := by
  unfold identity bodyPart parts
  rw [List.flatMap_map]
  by_cases hbody : scheme.hashesBody method
  · rw [if_pos hbody, if_pos hbody]
  · rw [if_neg hbody, if_neg hbody, List.append_nil]

theorem identity_mem_hashed :
    scheme.identity token method path body ∈ scheme.hashed token method path body := by
  unfold hashed
  split <;> simp

theorem body_mem_hashed (hbody : scheme.hashesBody method) :
    body.getD [] ∈ scheme.hashed token method path body := by
  simp [hashed, hbody]

theorem HasNoCollision.eq_of_hexDigest {messages : List Bytes} {a b : Bytes}
    (h : HasNoCollision messages) (ha : a ∈ messages) (hb : b ∈ messages)
    (hab : Digest.Sha256.hexDigest a = Digest.Sha256.hexDigest b) : a = b :=
  h a ha b hb (Bytes.hex_injective hab)

/-- The digits of a digest are not the empty text. -/
theorem ofText_bodyDigest_ne_nil (bytes : Bytes) : Bytes.ofText (bodyDigest bytes) ≠ [] := by
  intro h
  have hempty : bodyDigest bytes = Bytes.hex [] := Bytes.ofText_injective (by rw [h]; rfl)
  have hlength := Digest.Sha256.length_digest bytes
  rw [Bytes.hex_injective hempty] at hlength
  simp at hlength

/-- What follows the frames is the same just when both bodies take part and have one
digest, or neither takes part. -/
theorem bodyPart_eq_iff :
    scheme.bodyPart method body = scheme'.bodyPart method' body' ↔
      scheme.hashesBody method = scheme'.hashesBody method' ∧
        (scheme.hashesBody method = true →
          bodyDigest (body.getD []) = bodyDigest (body'.getD [])) := by
  unfold bodyPart
  cases hbody : scheme.hashesBody method <;> cases hbody' : scheme'.hashesBody method'
  · simp
  · simpa using (ofText_bodyDigest_ne_nil (body'.getD [])).symm
  · simpa using ofText_bodyDigest_ne_nil (body.getD [])
  · simpa using ⟨Bytes.ofText_injective, congrArg Bytes.ofText⟩

/-- What is hashed for two operations is the same just when the operations are, but for
bodies with one digest. -/
theorem identity_eq_iff (hmeasured : IsMeasured token method path)
    (hmeasured' : IsMeasured token' method' path') :
    scheme.identity token method path body = scheme'.identity token' method' path' body' ↔
      token = token' ∧ method = method' ∧ path = path' ∧
        scheme.hashesBody method = scheme'.hashesBody method' ∧
        (scheme.hashesBody method = true →
          bodyDigest (body.getD []) = bodyDigest (body'.getD [])) := by
  rw [identity_eq, identity_eq, ← bodyPart_eq_iff]
  constructor
  · intro h
    obtain ⟨hparts, hbody⟩ := frames_append_inj (by simp [parts]) hmeasured hmeasured' h
    simp only [parts, List.map_cons, List.cons.injEq] at hparts
    have hmethod : method = method' := by
      cases method; cases method'
      exact congrArg Http.Method.mk (Bytes.ofText_injective hparts.2.1)
    exact ⟨Bytes.ofText_injective hparts.1, hmethod, Bytes.ofText_injective hparts.2.2.1, hbody⟩
  · rintro ⟨rfl, rfl, rfl, hbody⟩
    rw [hbody]

/-- The keys of two operations are the same just when the tokens, the methods and the
paths are, both bodies take part or neither does, and bodies that take part are the same;
and the locks are the same just when the keys are. -/
theorem key_eq_iff (hmeasured : IsMeasured token method path)
    (hmeasured' : IsMeasured token' method' path')
    (happart : HasNoCollision
      (scheme.hashed token method path body ++ scheme'.hashed token' method' path' body')) :
    (scheme.key token method path body = scheme'.key token' method' path' body' ↔
      token = token' ∧ method = method' ∧ path = path' ∧
        scheme.hashesBody method = scheme'.hashesBody method' ∧
        (scheme.hashesBody method = true → body.getD [] = body'.getD [])) ∧
    ((scheme.key token method path body).lock = (scheme'.key token' method' path' body').lock ↔
      scheme.key token method path body = scheme'.key token' method' path' body') := by
  refine ⟨⟨fun h => ?_, ?_⟩, OperationKey.lock_injective, congrArg OperationKey.lock⟩
  · have hdigest : Digest.Sha256.hexDigest (scheme.identity token method path body) =
        Digest.Sha256.hexDigest (scheme'.identity token' method' path' body') := by
      simpa [key] using h
    have hidentity := happart.eq_of_hexDigest (List.mem_append_left _ identity_mem_hashed)
      (List.mem_append_right _ identity_mem_hashed) hdigest
    obtain ⟨htoken, hmethod, hpath, hboth, hbodies⟩ :=
      (identity_eq_iff hmeasured hmeasured').1 hidentity
    refine ⟨htoken, hmethod, hpath, hboth, fun hbody => ?_⟩
    exact happart.eq_of_hexDigest (List.mem_append_left _ (body_mem_hashed hbody))
      (List.mem_append_right _ (body_mem_hashed (hboth ▸ hbody))) (hbodies hbody)
  · rintro ⟨htoken, hmethod, hpath, hboth, hbodies⟩
    have hidentity := (identity_eq_iff hmeasured hmeasured').2
      ⟨htoken, hmethod, hpath, hboth, fun hbody => congrArg bodyDigest (hbodies hbody)⟩
    simp only [key, hidentity]

end Operations

/-! ## A body and a path that begins as the token ends -/

/-- The scheme that hashes the bodies of posts only. -/
def postsOnly : KeyScheme := ⟨true, [.post]⟩

/-- A slash that moves from the path to the token makes another key, although the bytes
of the parts in a row stay the same and no body takes part in the second key. -/
theorem slash_moves_key :
    IsMeasured "a" .post "b/c" ∧ IsMeasured "a/b" .post "c" ∧
    postsOnly.key "a" .post "b/c" none ≠ standard.key "a/b" .post "c" (some [1]) := by
  have hapart : HasNoCollision (postsOnly.hashed "a" .post "b/c" none ++
      standard.hashed "a/b" .post "c" (some [1])) := by decide +kernel
  have hfirst : IsMeasured "a" .post "b/c" := by decide
  have hsecond : IsMeasured "a/b" .post "c" := by decide
  refine ⟨hfirst, hsecond, fun h => ?_⟩
  have htoken := ((key_eq_iff hfirst hsecond hapart).1.1 h).1
  exact absurd htoken (by decide)

end KeyScheme

end Turnstile
