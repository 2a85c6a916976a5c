import Turnstile.Proofs.Json.RoundTrip
import Turnstile.Proofs.Time.Rfc3339
import Turnstile.Record.Text

/-!
# Records read back

A record whose instants can be written is read back from its stored text
exactly.  What it replays is then the response that was captured: its status,
its headers in their order, and the bytes of its body.

Main results:

- Theorem `ofStored?_render`: a stored record is read back.
- Theorem `content_of_ofStored?_render`: whatever is read back has the status, the
  headers and the body that were stored.
- Theorem `toResponse_eq_of_capture`: a captured response is replayed as it was.
-/

namespace Turnstile

/-! ## Header maps -/

namespace Http.Headers

/-- A header map as maps are kept: every name is a header name in lower case and
stands once, with one value at least, and every value may be one. -/
structure Proper (h : Headers) : Prop where
  distinct : (h.groups.map (·.1)).Nodup
  named : ∀ g ∈ h.groups, headerName? g.1 = some g.1
  given : ∀ g ∈ h.groups, g.2 ≠ []
  valued : ∀ g ∈ h.groups, ∀ value ∈ g.2, isHeaderValue value = true

/-- A value under a new name starts a group. -/
theorem append_new {groups : List (String × List Bytes)} {name : String} {value : Bytes}
    (h : name ∉ groups.map (·.1)) :
    (Headers.mk groups).append name value = ⟨groups ++ [(name, [value])]⟩ := by
  have hnone : (Headers.mk groups).contains name = false := by
    unfold contains
    rw [List.any_eq_false]
    intro g hg heq
    exact h (List.mem_map.2 ⟨g, hg, by simpa using heq⟩)
  unfold append
  rw [if_neg (by simp [hnone])]

/-- A value under the last name joins its group. -/
theorem append_last {groups : List (String × List Bytes)} {name : String} {values : List Bytes}
    {value : Bytes} (h : name ∉ groups.map (·.1)) :
    (Headers.mk (groups ++ [(name, values)])).append name value =
      ⟨groups ++ [(name, values ++ [value])]⟩ := by
  have hsome : (Headers.mk (groups ++ [(name, values)])).contains name = true := by
    simp [contains]
  have hothers : groups.map (fun g => if g.1 = name then (name, g.2 ++ [value]) else g) = groups := by
    apply (List.map_congr_left _).trans (List.map_id groups)
    intro g hg
    have hne : g.1 ≠ name := fun heq => h (List.mem_map.2 ⟨g, hg, heq⟩)
    rw [if_neg hne]
    rfl
  unfold append
  rw [if_pos hsome]
  simp [hothers]

/-- The further values of a name are added one after the other. -/
theorem foldl_append_values {groups : List (String × List Bytes)} {name : String}
    (h : name ∉ groups.map (·.1)) (values taken : List Bytes) :
    (values.map fun value => (name, value)).foldl (fun h pair => h.append pair.1 pair.2)
        (Headers.mk (groups ++ [(name, taken)])) = ⟨groups ++ [(name, taken ++ values)]⟩ := by
  induction values generalizing taken with
  | nil => simp
  | cons value values ih =>
      simp only [List.map_cons, List.foldl_cons, append_last h, ih]
      simp

/-- The values of groups, appended one by one, give the groups back. -/
theorem foldl_append_groups {groups taken : List (String × List Bytes)}
    (hgiven : ∀ g ∈ groups, g.2 ≠ []) (hdistinct : ((taken ++ groups).map (·.1)).Nodup) :
    (groups.flatMap fun g => g.2.map fun value => (g.1, value)).foldl
        (fun h pair => h.append pair.1 pair.2) (Headers.mk taken) = ⟨taken ++ groups⟩ := by
  induction groups generalizing taken with
  | nil => simp
  | cons g groups ih =>
      rcases g with ⟨name, values⟩
      have hnew : name ∉ taken.map (·.1) := by
        intro hmem
        rw [List.map_append, List.nodup_append] at hdistinct
        exact hdistinct.2.2 name hmem name (by simp) rfl
      cases values with
      | nil => exact absurd rfl (hgiven _ List.mem_cons_self)
      | cons value values =>
          have hothers : (((taken ++ [(name, value :: values)]) ++ groups).map (·.1)).Nodup := by
            simpa using hdistinct
          have hrest := ih (fun g hg => hgiven g (List.mem_cons_of_mem _ hg)) hothers
          simp only [List.flatMap_cons, List.map_cons, List.foldl_append, List.foldl_cons,
            append_new hnew, foldl_append_values hnew, List.singleton_append, hrest]
          simp

/-- A header map is made again from its pairs. -/
theorem ofList_toList {h : Headers} (hp : h.Proper) : ofList h.toList = h := by
  have hdistinct : (([] ++ h.groups).map Prod.fst).Nodup := hp.distinct
  exact foldl_append_groups hp.given hdistinct

end Http.Headers

namespace Record

open Json (Reads reads_natural reads_text reads_array reads_pair)

/-! ## Members -/

/-- The status of a record is read back, if it fits two bytes. -/
theorem reads_status {status : Nat} (h : status < 65536) :
    Reads readStatus (Json.natural status) status := by
  have hbounded : status ≤ 65535 := by omega
  have hread := (reads_natural hbounded (by decide)).map Int.toNat
  rw [Int.toNat_natCast] at hread
  exact hread

/-- A byte is read back. -/
theorem reads_byte (b : UInt8) : Reads readByte (Json.natural b.toNat) b := by
  have hsmall : b.toNat ≤ 255 := Nat.le_of_lt_succ b.toNat_lt
  have hread := (reads_natural hsmall (by decide)).map fun n => UInt8.ofNat n.toNat
  rw [Int.toNat_natCast, UInt8.ofNat_toNat] at hread
  exact hread

/-- So is a list of bytes. -/
theorem reads_bytes (bytes : Bytes) : Reads readBytes (renderBytes bytes) bytes :=
  reads_array fun b _ => reads_byte b

/-- So are headers. -/
theorem reads_headers (headers : List (String × Bytes)) :
    Reads readHeaders (Json.array (headers.map renderHeader)) headers :=
  reads_array fun header _ => reads_pair (reads_text header.1) (reads_bytes header.2)

/-- An instant whose text reads as another is read as that. -/
theorem reads_instant {t t' : Timestamp} (h : Rfc3339.read? (Rfc3339.render t) = some t') :
    Reads readInstant (Json.text (Rfc3339.render t)) t' := by
  have htext := reads_text (Rfc3339.render t)
  refine ⟨htext.begins, ?_⟩
  intro rest hrest
  simp only [readInstant, htext.reads rest hrest, h]

/-- An instant whose text reads as none is not read. -/
theorem readInstant_none {t : Timestamp} (h : Rfc3339.read? (Rfc3339.render t) = none) {rest : Bytes}
    (hrest : Json.Delimited rest) :
    readInstant (Json.text (Rfc3339.render t) ++ rest) = Json.mismatch rest := by
  simp only [readInstant, (reads_text (Rfc3339.render t)).reads rest hrest, h]

/-- A member that was not read before is read after its colon. -/
theorem readField_none {α : Type} {item : Bytes → Json.Read α} {written : Bytes} {a : α}
    (h : Reads item written a) {rest : Bytes} (hrest : Json.Delimited rest) :
    Json.readField none item (0x3A :: (written ++ rest)) = .ok (some a, rest) := by
  have hvalue : Json.readMemberValue item (0x3A :: (written ++ rest)) = item (written ++ rest) := rfl
  unfold Json.readField
  rw [hvalue, h.reads rest hrest]

/-- A member whose value is not read is not read. -/
theorem readField_stops {α : Type} {item : Bytes → Json.Read α} {input : Bytes} {stop : Json.Stop}
    (h : item input = .error stop) : Json.readField none item (0x3A :: input) = .error stop := by
  have hvalue : Json.readMemberValue item (0x3A :: input) = item input := rfl
  unfold Json.readField
  rw [hvalue, h]

/-! ## Records -/

/-- A record that can be stored and read back. -/
structure Storable (r : Record) : Prop where
  status : r.status < 65536
  created : Rfc3339.Writable r.createdAt
  expires : Rfc3339.Writable r.expiresAt

/-- The stored members before the instants. -/
def contentMembers (r : Record) : List (String × Bytes) :=
  [("status_code", Json.natural r.status),
   ("headers", Json.array (r.headers.map renderHeader)),
   ("body", renderBytes r.body)]

/-- The content of a record is gathered from its first members. -/
theorem gathers_content {r : Record} (hstatus : r.status < 65536) :
    Json.Gathers readMember Members.none r.contentMembers
      ⟨some r.status, some r.headers, some r.body, none, none⟩ := by
  refine .cons (t := ⟨some r.status, none, none, none, none⟩) ?_ ?_
  · intro rest hrest
    have hread := readField_none (reads_status hstatus) hrest
    simp only [readMember, Members.none, hread]
    rfl
  refine .cons (t := ⟨some r.status, some r.headers, none, none, none⟩) ?_ ?_
  · intro rest hrest
    have hread := readField_none (reads_headers r.headers) hrest
    simp [readMember, hread, Except.map]
  refine .cons ?_ (.nil _)
  intro rest hrest
  have hread := readField_none (reads_bytes r.body) hrest
  simp [readMember, hread, Except.map]

/-- Its two instants are gathered from the last ones. -/
theorem gathers_instants {status : Nat} {headers : List (String × Bytes)} {body : Bytes}
    {createdAt expiresAt created expires : Timestamp}
    (hcreated : Rfc3339.read? (Rfc3339.render createdAt) = some created)
    (hexpires : Rfc3339.read? (Rfc3339.render expiresAt) = some expires) :
    Json.Gathers readMember ⟨some status, some headers, some body, none, none⟩
      [("created_at", Json.text (Rfc3339.render createdAt)),
       ("expires_at", Json.text (Rfc3339.render expiresAt))]
      ⟨some status, some headers, some body, some created, some expires⟩ := by
  refine .cons (t := ⟨some status, some headers, some body, some created, none⟩) ?_ ?_
  · intro rest hrest
    have hread := readField_none (reads_instant hcreated) hrest
    simp [readMember, hread, Except.map]
  refine .cons ?_ (.nil _)
  intro rest hrest
  have hread := readField_none (reads_instant hexpires) hrest
  simp [readMember, hread, Except.map]

/-- The instants are not read if one of them is not. -/
theorem stops_instants {status : Nat} {headers : List (String × Bytes)} {body : Bytes}
    {createdAt expiresAt : Timestamp}
    (h : Rfc3339.read? (Rfc3339.render createdAt) = none ∨
      Rfc3339.read? (Rfc3339.render expiresAt) = none) :
    Json.Stops readMember ⟨some status, some headers, some body, none, none⟩
      [("created_at", Json.text (Rfc3339.render createdAt)),
       ("expires_at", Json.text (Rfc3339.render expiresAt))] := by
  cases hcreated : Rfc3339.read? (Rfc3339.render createdAt) with
  | none =>
      apply Json.Stops.here
      intro rest hrest
      have hread := readField_stops (readInstant_none hcreated hrest)
      exact ⟨_, by simp [readMember, hread, Except.map]; rfl⟩
  | some created =>
      have hexpires := h.resolve_left (by simp [hcreated])
      refine .later (t := ⟨some status, some headers, some body, some created, none⟩) ?_ ?_
      · intro rest hrest
        have hread := readField_none (reads_instant hcreated) hrest
        simp [readMember, hread, Except.map]
      · apply Json.Stops.here
        intro rest hrest
        have hread := readField_stops (readInstant_none hexpires hrest)
        exact ⟨_, by simp [readMember, hread, Except.map]; rfl⟩

/-- A record whose instants read as others is read back with those. -/
theorem ofStored?_render_of_instants {r : Record} (hstatus : r.status < 65536)
    {created expires : Timestamp} (hcreated : Rfc3339.read? (Rfc3339.render r.createdAt) = some created)
    (hexpires : Rfc3339.read? (Rfc3339.render r.expiresAt) = some expires) :
    ofStored? r.render = some { r with createdAt := created, expiresAt := expires } := by
  have hcomplete : Members.toRecord
      ⟨some r.status, some r.headers, some r.body, some created, some expires⟩ =
        some { r with createdAt := created, expiresAt := expires } := rfl
  have hgathers := (gathers_content hstatus).append (gathers_instants hcreated hexpires)
  rcases Json.readObject_object hgathers hcomplete [] with ⟨more, hwritten, hread⟩
  have hrender : r.render = 0x7B :: more := by
    rw [← hwritten, List.append_nil]
    rfl
  have hobject : readRecord (0x7B :: more) =
      Json.readObject Members.none readMember Members.toRecord more := rfl
  unfold ofStored? Json.readAll
  rw [hrender, hobject, hread]
  rfl

/-- A record with an instant that does not read is not read back. -/
theorem ofStored?_render_of_stops {r : Record} (hstatus : r.status < 65536)
    (h : Rfc3339.read? (Rfc3339.render r.createdAt) = none ∨
      Rfc3339.read? (Rfc3339.render r.expiresAt) = none) : ofStored? r.render = none := by
  have hstops := (gathers_content hstatus).stops (stops_instants h)
  rcases Json.readObject_stops hstops Members.toRecord [] with ⟨more, stop, hwritten, hread⟩
  have hrender : r.render = 0x7B :: more := by
    rw [← hwritten, List.append_nil]
    rfl
  have hobject : readRecord (0x7B :: more) =
      Json.readObject Members.none readMember Members.toRecord more := rfl
  unfold ofStored? Json.readAll
  rw [hrender, hobject, hread]
  rfl

/-- Whatever is read back of a record has its content, with the instants that were
read. -/
theorem exists_of_ofStored?_render {r r' : Record} (hstatus : r.status < 65536)
    (h : ofStored? r.render = some r') :
    ∃ created expires, Rfc3339.read? (Rfc3339.render r.createdAt) = some created ∧
      Rfc3339.read? (Rfc3339.render r.expiresAt) = some expires ∧
      r' = { r with createdAt := created, expiresAt := expires } := by
  cases hcreated : Rfc3339.read? (Rfc3339.render r.createdAt) with
  | none =>
      rw [ofStored?_render_of_stops hstatus (Or.inl hcreated)] at h
      exact nomatch h
  | some created =>
      cases hexpires : Rfc3339.read? (Rfc3339.render r.expiresAt) with
      | none =>
          rw [ofStored?_render_of_stops hstatus (Or.inr hexpires)] at h
          exact nomatch h
      | some expires =>
          rw [ofStored?_render_of_instants hstatus hcreated hexpires, Option.some.injEq] at h
          exact ⟨created, expires, rfl, rfl, h.symm⟩

/-- Whatever is read back of a record has its content. -/
theorem content_of_ofStored?_render {r r' : Record} (hstatus : r.status < 65536)
    (h : ofStored? r.render = some r') :
    r'.status = r.status ∧ r'.headers = r.headers ∧ r'.body = r.body := by
  rcases exists_of_ofStored?_render hstatus h with ⟨created, expires, _, _, rfl⟩
  exact ⟨rfl, rfl, rfl⟩

/-- A stored record is read back. -/
theorem ofStored?_render {r : Record} (h : r.Storable) : ofStored? r.render = some r :=
  ofStored?_render_of_instants h.status (Rfc3339.read?_render h.created)
    (Rfc3339.read?_render h.expires)

/-! ## Responses -/

/-- A list of which everything is kept as it is stays as it is. -/
theorem filterMap_eq_self {α : Type} {f : α → Option α} {xs : List α}
    (h : ∀ x ∈ xs, f x = some x) : xs.filterMap f = xs := by
  induction xs with
  | nil => rfl
  | cons x xs ih =>
      rw [List.filterMap_cons_some (h x List.mem_cons_self),
        ih fun y hy => h y (List.mem_cons_of_mem _ hy)]

/-- Every header of a proper map has a proper name and a proper value. -/
theorem proper_of_mem_toList {headers : Http.Headers} (h : headers.Proper)
    {header : String × Bytes} (hmem : header ∈ headers.toList) :
    Http.isHeaderValue header.2 = true ∧ Http.headerName? header.1 = some header.1 := by
  unfold Http.Headers.toList at hmem
  rcases List.mem_flatMap.1 hmem with ⟨g, hg, hheader⟩
  rcases List.mem_map.1 hheader with ⟨value, hvalue, rfl⟩
  exact ⟨h.valued g hg value hvalue, h.named g hg⟩

/-- The header map of a captured response is the one that it had. -/
theorem headerMap_capture {headers : Http.Headers} (h : headers.Proper) (status : Nat)
    (body : Bytes) (createdAt : Timestamp) (ttl : Span) :
    (capture status headers body createdAt ttl).headerMap = headers := by
  have hkept : headers.toList.filterMap (fun header =>
      if Http.isHeaderValue header.2 then
        (Http.headerName? header.1).map fun name => (name, header.2)
      else none) = headers.toList := by
    apply filterMap_eq_self
    intro header hmem
    rcases proper_of_mem_toList h hmem with ⟨hvalue, hname⟩
    rw [if_pos hvalue, hname]
    rfl
  unfold headerMap
  rw [show (capture status headers body createdAt ttl).headers = headers.toList from rfl, hkept]
  exact Http.Headers.ofList_toList h

/-- A captured response is replayed as it was. -/
theorem toResponse_eq_of_capture {headers : Http.Headers} (h : headers.Proper) {status : Nat}
    (hstatus : isStatus status = true) (body : Bytes) (createdAt : Timestamp) (ttl : Span) :
    (capture status headers body createdAt ttl).toResponse =
      ⟨status, headers, Http.Body.ofBytes body⟩ := by
  have hheaders := headerMap_capture h status body createdAt ttl
  have hshown : (if isStatus (capture status headers body createdAt ttl).status then
      (capture status headers body createdAt ttl).status else 500) = status :=
    toResponse_capture headers body createdAt ttl hstatus
  unfold toResponse
  rw [hheaders, hshown]
  rfl

end Record

end Turnstile
