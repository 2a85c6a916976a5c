import Turnstile.Once.Execute
import Turnstile.Proofs.Record.RoundTrip
import Turnstile.Proofs.Time.Timestamp

/-!
# Stored texts and what they stand for

A record is kept in the store as a text, and every lookup goes through that text.  No
record is changed on the way, and no two records have one text: neither the quotes and
control characters that a name may have, nor bytes that are no text, nor instants whose
years have a sign get lost.  A record that is captured has such instants by itself, since
the end of its life is never after the latest one.

Main results:

- Theorem `storable_capture`: what is captured at an instant of the calendar can be
  stored and read back.
- Theorem `render_injective`: different records have different texts.
- Theorem `stored_text_faithful`: a lookup finds the record whose text was stored,
  whatever its status is, as long as it is valid.

Current gaps:

- Leap seconds are left out: one that does not end a minute has the text of the second
  after it.
-/

namespace Turnstile.Record

open Rfc3339 (Writable)
open Store (Answer)

/-! ## What is captured -/

/-- The earliest instant comes before every instant that can be written. -/
theorem earliest_le_of_writable {t : Timestamp} (h : Writable t) :
    Timestamp.earliest.le t = true := by
  have hearliest := h.earliest
  rw [Timestamp.le_iff]
  have hnanos : Timestamp.earliest.nanos = 0 := rfl
  omega

/-- What is captured at an instant of the calendar can be stored and read back, however
long it is to live. -/
theorem storable_capture {status : Nat} (hstatus : status < 65536) (headers : Http.Headers)
    (body : Bytes) {createdAt : Timestamp} (hcreated : Writable createdAt) (ttl : Span) :
    (capture status headers body createdAt ttl).Storable where
  status := hstatus
  created := hcreated
  expires := Timestamp.writable_addSaturating_of_le (earliest_le_of_writable hcreated) ttl

/-! ## Texts -/

/-- Different records have different texts. -/
theorem render_injective {r r' : Record} (h : r.Storable) (h' : r'.Storable)
    (hsame : r.render = r'.render) : r = r' := by
  have hread := ofStored?_render h
  rw [hsame, ofStored?_render h'] at hread
  exact (Option.some.inj hread).symm

/-- A lookup finds the record whose text was stored, while that is valid. -/
theorem recordOf_render {r : Record} (h : r.Storable) (now : Timestamp) :
    Once.recordOf now (.value (some r.render)) = .ok (if r.isExpired now then none else some r) := by
  simp only [Once.recordOf, ofStored?_render h]

/-- The text of a record is read back as the record, so a lookup finds it until it
expires and no other record has that text; and all of this is true of every record that
was captured at an instant of the calendar. -/
theorem stored_text_faithful :
    (∀ r : Record, r.Storable →
      ofStored? r.render = some r ∧
      ∀ now, Once.recordOf now (.value (some r.render)) =
        .ok (if r.isExpired now then none else some r)) ∧
    (∀ r r' : Record, r.Storable → r'.Storable → r ≠ r' → r.render ≠ r'.render) ∧
    ∀ status headers body createdAt ttl, status < 65536 → Writable createdAt →
      (capture status headers body createdAt ttl).Storable := by
  refine ⟨?_, ?_, ?_⟩
  · intro r h
    exact ⟨ofStored?_render h, recordOf_render h⟩
  · intro r r' h h' hne hsame
    exact hne (render_injective h h' hsame)
  · intro status headers body createdAt ttl hstatus hcreated
    exact storable_capture hstatus headers body hcreated ttl

/-! ## Records at the ends of the calendar -/

/-- A header whose name has quotes, control characters and signs beyond the basic plane,
with values of any bytes. -/
def oddHeaders : Http.Headers :=
  ⟨[("x-\"quoted\"\\\n\x01é😀", [[0x00, 0x22, 0xFF], []])]⟩

/-- What is captured in the last second of the calendar for an hour. -/
def lastCapture : Record :=
  capture 65535 oddHeaders [0xC3, 0x28] ⟨Timestamp.latest.seconds, 120⟩ (.ofSeconds 3600)

/-- The record of the same response in the first second of the calendar. -/
def firstCapture : Record :=
  capture 65535 oddHeaders [0xC3, 0x28] ⟨Timestamp.earliest.seconds, 5_000_000⟩ (.ofSeconds 3600)

/-- Both are read back from their texts, which differ, and the first one lives until the
end of the calendar. -/
theorem captures_read_back :
    ofStored? lastCapture.render = some lastCapture ∧
      lastCapture.expiresAt = Timestamp.latest ∧
      ofStored? firstCapture.render = some firstCapture ∧
      lastCapture.render ≠ firstCapture.render := by
  rcases stored_text_faithful with ⟨hread, hdiffer, hcaptured⟩
  have hlast : lastCapture.Storable :=
    hcaptured _ _ _ _ _ (by decide) ⟨by decide, by decide, by decide⟩
  have hfirst : firstCapture.Storable :=
    hcaptured _ _ _ _ _ (by decide) ⟨by decide, by decide, by decide⟩
  refine ⟨(hread lastCapture hlast).1, by decide, (hread firstCapture hfirst).1, ?_⟩
  exact hdiffer lastCapture firstCapture hlast hfirst (by decide)

end Turnstile.Record
