import Switchboard.Proofs.Interchange

/-!
# An import loses nothing

Whatever stands in the catalog, an accepted text leaves a row from which its program
is read back exactly, and an export that describes the same program. Importing that
export again finds the row it would write.
-/

namespace Switchboard

namespace Catalog

variable {c : Catalog} {id : ProgramId}

/-! ## Putting a row in its place -/

theorem of_row? {r : Row} (h : c.row? id = some r) : r ∈ c.rows ∧ r.id = id := by
  unfold row? at h
  have hid := List.find?_some h
  exact ⟨List.mem_of_find?_eq_some h, of_decide_eq_true hid⟩

theorem row?_eq_none_iff : c.row? id = none ↔ ∀ r ∈ c.rows, r.id ≠ id := by
  unfold row?
  rw [List.find?_eq_none]
  simp only [decide_eq_true_eq]

/-- A row with an identifier of its own replaces. -/
theorem put_of_some {r q : Row} (h : c.row? r.id = some q) :
    c.put r = { c with rows := c.rows.map fun q => if q.id = r.id then r else q } := by
  unfold put
  rw [h]
  rfl

/-- A row with a new identifier is added. -/
theorem put_of_none {r : Row} (h : c.row? r.id = none) :
    c.put r = { c with rows := c.rows ++ [r] } := by
  unfold put
  rw [h]
  rfl

/-- **What a put leaves**: the row itself, and those with other identifiers. -/
theorem mem_rows_put {c : Catalog} {r q : Row} :
    q ∈ (c.put r).rows ↔ q = r ∨ q ∈ c.rows ∧ q.id ≠ r.id := by
  cases h : c.row? r.id with
  | some p =>
    obtain ⟨hp, hid⟩ := of_row? h
    rw [put_of_some h, List.mem_map]
    constructor
    · rintro ⟨s, hs, rfl⟩
      by_cases heq : s.id = r.id
      · rw [if_pos heq]
        exact .inl rfl
      · rw [if_neg heq]
        exact .inr ⟨hs, heq⟩
    · rintro (rfl | ⟨hq, hne⟩)
      · exact ⟨p, hp, if_pos hid⟩
      · exact ⟨q, hq, if_neg hne⟩
  | none =>
    have habsent := row?_eq_none_iff.mp h
    rw [put_of_none h, List.mem_append, List.mem_singleton]
    constructor
    · rintro (hq | rfl)
      · exact .inr ⟨hq, habsent q hq⟩
      · exact .inl rfl
    · rintro (rfl | ⟨hq, -⟩)
      · exact .inr rfl
      · exact .inl hq

/-- Only rows are put, and the supply is left alone. -/
theorem ids_put (c : Catalog) (r : Row) : (c.put r).ids = c.ids := by
  unfold put
  split <;> rfl

/-- **What was put is found.** -/
theorem row?_put_self (c : Catalog) (r : Row) : (c.put r).row? r.id = some r := by
  cases h : (c.put r).row? r.id with
  | none => exact absurd rfl (row?_eq_none_iff.mp h r (mem_rows_put.mpr (.inl rfl)))
  | some q =>
    obtain ⟨hq, hid⟩ := of_row? h
    rcases mem_rows_put.mp hq with rfl | ⟨-, hne⟩
    · rfl
    · exact absurd hid hne

/-- **A row that was put already is put again without effect.** -/
theorem put_put (c : Catalog) (r : Row) : (c.put r).put r = c.put r := by
  have hrows : ∀ q ∈ (c.put r).rows, (if q.id = r.id then r else q) = q := by
    intro q hq
    rcases mem_rows_put.mp hq with rfl | ⟨-, hne⟩
    · exact if_pos rfl
    · exact if_neg hne
  rw [put_of_some (row?_put_self c r), List.map_congr_left hrows, List.map_id']

/-! ## Importing -/

/-- A program that was looked up without a fault is there exactly if a row is. -/
theorem isSome_row?_of_find? {found : Option Program} (h : c.find? id = .ok found) :
    (c.row? id).isSome = found.isSome := by
  unfold find? at h
  cases hrow : c.row? id with
  | none =>
    rw [hrow] at h
    rw [← Except.ok.inj h]
    rfl
  | some r =>
    rw [hrow] at h
    dsimp only at h
    split at h
    · rw [← Except.ok.inj h]
      rfl
    · cases h

/-- An import that reads no program leaves the rows alone. -/
theorem importText_of_error {text : String} {fault : Malformed} {ids : IdSupply}
    (h : Program.ofText c.ids text = (.error fault, ids)) :
    c.importText text = (.error (.malformed fault), { c with ids }) := by
  unfold importText
  rw [h]

/-- **An import puts the program that it reads**, unless what is in its place cannot be
read. -/
theorem importText_of_ok {text : String} {p : Program} {ids : IdSupply}
    (h : Program.ofText c.ids text = (.ok p, ids)) :
    c.importText text = match Catalog.find? { c with ids } p.id with
      | .error f => (.error f, { c with ids })
      | .ok _ => (.ok p, Catalog.put { c with ids } (.ofProgram p)) := by
  unfold importText
  rw [h]
  dsimp only
  cases hfind : Catalog.find? { c with ids } p.id with
  | error f => rfl
  | ok found =>
    have hrow := isSome_row?_of_find? hfind
    cases found with
    | some q => exact if_pos hrow
    | none => exact if_neg (Bool.eq_false_iff.mp hrow)

/-- What an accepted import has done. -/
theorem of_importText {text : String} {p : Program} {c' : Catalog}
    (h : c.importText text = (.ok p, c')) :
    ∃ ids, Program.ofText c.ids text = (.ok p, ids)
      ∧ c' = Catalog.put { c with ids } (.ofProgram p) := by
  cases hparsed : Program.ofText c.ids text with
  | mk parsed ids =>
    cases parsed with
    | error fault =>
      rw [importText_of_error hparsed] at h
      cases h
    | ok q =>
      rw [importText_of_ok hparsed] at h
      split at h
      · cases h
      · cases h
        exact ⟨ids, rfl, rfl⟩

/-- A row whose program can be read is found with its program. -/
theorem find?_of_row? {p : Program} {r : Row} {rest : IdSupply} (h : c.row? id = some r)
    (hread : r.toProgram? c.ids = some (p, rest)) : c.find? id = .ok (some p) := by
  unfold find?
  rw [h]
  dsimp only
  rw [hread]

/-- **Import, storage and export lose nothing.** The program of an accepted text is read
back from the catalog, and from its export without minting anything, and to import that
export again changes nothing at all. The import has filled every identifier of its
document once, in order, and the program keeps what it was given. -/
theorem importText_kept {text : String} {p : Program} {c' : Catalog}
    (h : c.importText text = (.ok p, c')) :
    c'.get p.id = .ok p ∧ c'.resolve p.id = .ok p
      ∧ (∀ supply, Program.ofText supply p.toText = (.ok p, supply))
      ∧ c'.importText p.toText = (.ok p, c')
      ∧ ∃ doc inner, ProgramDocument.decoder.run text = some doc
          ∧ c.ids.fillAll doc.ids = (p.id :: inner, c'.ids)
          ∧ (p.walk.map Step.id).Sublist inner := by
  obtain ⟨ids, hparsed, rfl⟩ := of_importText h
  have hvalid := Program.valid_of_ofText hparsed
  have hlowered := Program.lowered_of_ofText hparsed
  have hread : ∀ supply, (Row.ofProgram p).toProgram? supply = some (p, supply) := by
    intro supply
    rw [Row.toProgram?_ofProgram supply hvalid, if_pos (Program.shallow_of_ofText hparsed),
      hlowered]
  have hexport : ∀ supply, Program.ofText supply p.toText = (.ok p, supply) := by
    intro supply
    rw [Program.ofText_toText supply hvalid (Program.height_of_ofText hparsed), hlowered]
  have hids := Program.ids_of_ofText hparsed
  generalize hbase : ({ c with ids } : Catalog) = base
  have hrow : (base.put (.ofProgram p)).row? p.id = some (.ofProgram p) :=
    row?_put_self base (.ofProgram p)
  have hfind := find?_of_row? hrow (hread _)
  refine ⟨?_, ?_, hexport, ?_, ?_⟩
  · unfold get
    rw [hfind]
  · unfold resolve
    rw [hfind]
  · unfold importText
    rw [hexport]
    dsimp only
    rw [hfind]
    dsimp only
    unfold replace
    rw [hrow]
    show (Except.ok p, (base.put (.ofProgram p)).put (.ofProgram p)) = _
    rw [put_put]
  · rw [ids_put, ← hbase]
    exact hids

/-- A program whose identifiers were all minted. -/
def pause : Program :=
  ⟨IdSupply.uuid 0, "Pause", true, [.wait (IdSupply.uuid 1) (.fixed 5)]⟩

/-- A text that describes `pause` but leaves its identifiers out. -/
theorem importText_kept_pause :
    ∃ (text : String) (c' : Catalog), (Catalog.empty ⟨0⟩).importText text = (.ok pause, c')
      ∧ c'.get pause.id = .ok pause ∧ c'.resolve pause.id = .ok pause
      ∧ c'.importText pause.toText = (.ok pause, c') := by
  have h : (Catalog.empty ⟨0⟩).importText (Json.compact (.record [("name", .text "Pause"),
      ("steps", .arr [.record [("type", .text "wait"), ("duration", .int 5)]])]))
      = (.ok pause, Catalog.put (.empty ⟨2⟩) (.ofProgram pause)) := by
    unfold importText Program.ofText Json.Decoder.run
    rw [Json.parse_compact]
    rfl
  obtain ⟨hget, hresolve, -, hagain, -⟩ := importText_kept h
  exact ⟨_, _, h, hget, hresolve, hagain⟩

end Catalog

end Switchboard
