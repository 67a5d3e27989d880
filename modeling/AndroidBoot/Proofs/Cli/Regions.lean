import AndroidBoot.Cli.Bootconfigs
import AndroidBoot.Proofs.Bootconfig.Failures
import AndroidBoot.Proofs.Cli.Sessions

/-!
# Regions in files

`append` and `trailer` work on a copy of a file that is large enough for whatever they do. So
neither fails for a lack of room; a failure leaves all files as they are, and of the copy as much is
written as was there before or is needed for the new trailer.

    the command fails → no file changes, and it does not say that there is no room
    the command ends well → the file has changed from `place` to `stop` only, and `check` finds
      the trailer that ends at `stop`                                      (exec_regionChange)
-/

namespace AndroidBoot.Cli

open Bootconfig

/-- What can be done to a region in a file. -/
inductive RegionChange where
  | append (params : List String)
  | trailer

namespace RegionChange

def command (spot : RegionSpot) : RegionChange → BootconfigCommand
  | append params => .append spot params
  | trailer => .trailer spot

/-- The bytes that are added to the data. -/
def added : RegionChange → Bytes
  | append params => paramLines params
  | trailer => []

/-- Where a change starts: where the parameters go, or behind the data. -/
def place (spot : RegionSpot) (data : Bytes) : RegionChange → Nat
  | append _ => paramsStart data spot.start spot.size
  | trailer => spot.start + spot.size

def context : RegionChange → String
  | append _ => "Failed to append parameters: "
  | trailer => "Failed to write trailer: "

/-- What a change makes of a buffer. -/
def apply (spot : RegionSpot) : RegionChange → Bytes → Except BootconfigError Nat × Bytes
  | append params => fun buf => addParams buf spot.start spot.size (paramLines params)
  | trailer => fun buf => close buf spot.start spot.size

/-- How an error in a change is reported. -/
def failure (spot : RegionSpot) (e : BootconfigError) (change : RegionChange) : Failure :=
  (Failure.ofMessage e.message).within (change.context ++ quoteText spot.input)

end RegionChange

/-- The file that the result goes to. -/
def RegionSpot.target (spot : RegionSpot) : String := spot.output.getD spot.input

/-- The content of a file with room behind it. -/
def grown (data : Bytes) (spot : RegionSpot) (added : Nat) : Bytes :=
  data ++ Bytes.zeros (spot.start + spot.size + growth added - data.length)

/-- The grown content with what is added to the region. -/
def placed (data : Bytes) (spot : RegionSpot) (change : RegionChange) : Bytes :=
  Bytes.overwrite (grown data spot change.added.length) (change.place spot data) change.added

/-- Why a change is refused. -/
inductive Refused (s : Session) (data : Bytes) (spot : RegionSpot) (change : RegionChange) :
    Failure → Prop
  | noParams : change = .append [] → Refused s data spot change (change.failure spot .noParams)
  | region {e : BootconfigError} :
      Unclosable (placed data spot change) spot.start
        (change.place spot data - spot.start + change.added.length) e →
      Refused s data spot change (change.failure spot e)
  | target {fault : Fault} : s.store.write spot.target [] = .error fault →
      Refused s data spot change ((Failure.ofFault fault).within
        ("Failed to write data: " ++ quoteText spot.target))

/-- A file that is changed from `place` to `stop` only, and is no longer than it was or has to be;
what it lacks before `place` is zeros. -/
structure ChangedFile (data added : Bytes) (place stop : Nat) (file : Bytes) : Prop where
  length : file.length = max data.length stop
  front : file.take place = Bytes.resize data place
  params : Bytes.slice? file place (place + added.length) = some added
  behind : file.drop stop = data.drop stop

/-! ## Room -/

section
variable (data : Bytes) (spot : RegionSpot) (change : RegionChange)

theorem place_grown (added : Nat) : change.place spot (grown data spot added)
    = change.place spot data := by
  cases change with
  | append params =>
    unfold RegionChange.place paramsStart sizeWithoutTrailer grown
    rw [isClosedAt_append_zeros]
  | trailer => rfl

theorem start_le_place : spot.start ≤ change.place spot data := by
  cases change with
  | append params => exact le_paramsStart data spot.start spot.size
  | trailer => exact Nat.le_add_right _ _

theorem place_le : change.place spot data ≤ spot.start + spot.size := by
  cases change with
  | append params => exact paramsStart_le data spot.start spot.size
  | trailer => exact Nat.le_refl _

theorem lt_place_add (h : change = .trailer ∨ change.added ≠ []) :
    spot.start + spot.size < change.place spot data + change.added.length + trailerSize := by
  have h20 : trailerSize = 20 := rfl
  cases change with
  | append params =>
    have hpos := List.length_pos_iff.2 (h.resolve_left nofun)
    have hend : spot.start + spot.size
        ≤ RegionChange.place spot data (.append params) + trailerSize :=
      le_paramsStart_add data spot.start spot.size
    omega
  | trailer => exact Nat.lt_add_of_pos_right (by decide)

theorem le_length_grown (added : Nat) :
    spot.start + spot.size + growth added ≤ (grown data spot added).length := by
  rw [grown, List.length_append, Bytes.length_zeros]
  omega

theorem take_grown {added n : Nat}
    (hn : n ≤ max data.length (spot.start + spot.size + growth added)) :
    (grown data spot added).take n = Bytes.resize data n := by
  rw [grown, List.take_append, Bytes.resize, Bytes.zeros, List.take_replicate, Bytes.zeros]
  congr 2
  omega

end

/-! ## Reasons -/

/-- A text that starts with another has its characters. -/
theorem getElem?_toList_append {a : String} {i : Nat} {c : Char} (h : a.toList[i]? = some c)
    (b : String) : (a ++ b).toList[i]? = some c := by
  have hi := (List.getElem?_eq_some_iff.1 h).1
  rw [String.toList_append, List.getElem?_append_left hi, h]

/-- The `n` of `needs`. -/
theorem getElem?_message_tooSmall (needed available : Nat) :
    (BootconfigError.tooSmall needed available).message.toList[18]? = some 'n' :=
  getElem?_toList_append (getElem?_toList_append
    (getElem?_toList_append (by decide +kernel) _) _) _

/-- The `e` of `does`. -/
theorem getElem?_message_tooLarge (size : Nat) :
    (BootconfigError.tooLarge size).message.toList[18]? = some 'e' :=
  getElem?_toList_append (by decide +kernel) _

theorem Unclosable.message_ne {buf : Bytes} {start size : Nat} {e : BootconfigError}
    (h : Unclosable buf start size e) :
    e.message ≠ BootconfigError.noBuffer.message ∧
      ∀ needed available, e.message ≠ (BootconfigError.tooSmall needed available).message := by
  have hat : e.message.toList[18]? ≠ some 'n' ∧
      e.message ≠ BootconfigError.noBuffer.message := by
    cases h with
    | emptyRegion => decide
    | alreadyClosed => decide
    | tooLarge =>
      have h18 := getElem?_message_tooLarge (alignedEnd (start + size) - start)
      refine ⟨by rw [h18]; decide, fun heq => ?_⟩
      rw [heq] at h18
      revert h18
      decide
  exact ⟨hat.2, fun needed available heq =>
    hat.1 (heq ▸ getElem?_message_tooSmall needed available)⟩

/-- No refusal says that there is no room, or no buffer. -/
theorem Refused.not_room {s : Session} {data : Bytes} {spot : RegionSpot} {change : RegionChange}
    {f : Failure} (h : Refused s data spot change f) :
    f ≠ change.failure spot .noBuffer ∧
      ∀ needed available, f ≠ change.failure spot (.tooSmall needed available) := by
  -- what is reported ends with the message of the error
  have hmessage : ∀ e e' : BootconfigError, change.failure spot e = change.failure spot e' →
      e.message = e'.message := by
    intro e e' heq
    exact (List.cons.inj (List.cons.inj (congrArg Failure.contexts heq)).2).1
  cases h with
  | noParams hnone =>
    refine ⟨fun heq => absurd (hmessage _ _ heq) (by decide), fun needed available heq => ?_⟩
    have h18 := getElem?_message_tooSmall needed available
    rw [← hmessage _ _ heq] at h18
    revert h18
    decide
  | region hunclosable =>
    obtain ⟨hbuffer, hroom⟩ := Unclosable.message_ne hunclosable
    exact ⟨fun heq => hbuffer (hmessage _ _ heq),
      fun needed available heq => hroom needed available (hmessage _ _ heq)⟩
  | target hwrite =>
    exact ⟨fun heq => absurd (congrArg Failure.cause heq) nofun,
      fun needed available heq => absurd (congrArg Failure.cause heq) nofun⟩

/-! ## Buffers -/

section
variable {data b b' : Bytes} {spot : RegionSpot} {change : RegionChange}

theorem paramLines_ne_nil {params : List String} (h : params ≠ []) : paramLines params ≠ [] := by
  obtain ⟨p, params, rfl⟩ := List.exists_cons_of_ne_nil h
  simp [paramLines]

/-- Where what is added can be put in place, the rest is closing the region with it. -/
theorem apply_eq_close (h : change = .trailer ∨ Placeable b spot.start spot.size change.added) :
    change.apply spot b = close (Bytes.overwrite b (change.place spot b) change.added) spot.start
      (change.place spot b - spot.start + change.added.length) := by
  cases change with
  | append params => exact addParams_of_placeable (h.resolve_left nofun)
  | trailer =>
    have hsize : RegionChange.place spot b .trailer - spot.start + RegionChange.trailer.added.length
      = spot.size := Nat.add_sub_cancel_left ..
    rw [hsize]
    exact congrArg (close · spot.start spot.size) (Bytes.overwrite_nil b _).symm

/-- Where a change succeeds, the region with what is added is closed, behind its old end. -/
theorem apply_eq_ok {stop : Nat} (h : change.apply spot b = (.ok stop, b')) :
    let place := change.place spot b
    let dataEnd := place + change.added.length
    let filledIn := Bytes.overwrite b place change.added
    Closable filledIn spot.start (dataEnd - spot.start) ∧
      stop = alignedEnd dataEnd + trailerSize ∧
      b' = closed filledIn spot.start dataEnd (alignedEnd dataEnd) ∧
      dataEnd ≤ b.length ∧ spot.start + spot.size < stop := by
  intro place dataEnd filledIn
  have hplaceable : change = .trailer ∨ Placeable b spot.start spot.size change.added := by
    cases change with
    | append params => exact .inr (addParams_eq_ok_iff.1 h).1
    | trailer => exact .inl rfl
  have hge : spot.start ≤ place := start_le_place b spot change
  have hsize : place - spot.start + change.added.length = dataEnd - spot.start := by omega
  have hdata : spot.start + (dataEnd - spot.start) = dataEnd := by omega
  rw [apply_eq_close hplaceable, hsize, close_eq_ok_iff, hdata] at h
  obtain ⟨hclosable, hstop, hb'⟩ := h
  have hroom : dataEnd ≤ b.length := by
    rcases hplaceable with rfl | hplaceable
    · have hin : dataEnd ≤ filledIn.length := hdata ▸ hclosable.inside
      have hfilled : filledIn = b := Bytes.overwrite_nil b _
      rwa [hfilled] at hin
    · cases change with
      | append params => exact hplaceable.room
      | trailer => exact absurd rfl hplaceable.params
  have hlt := lt_place_add b spot change (hplaceable.imp_right (·.params))
  have hle := le_alignedEnd dataEnd
  exact ⟨hclosable, hstop, hb', hroom, by omega⟩

/-- With room for the most that a change needs it is not refused for a lack of room. -/
theorem apply_eq_error {e : BootconfigError}
    (hroom : spot.start + spot.size + growth change.added.length ≤ b.length)
    (h : change.apply spot b = (.error e, b')) :
    change = .append [] ∧ e = .noParams ∨
      Unclosable (Bytes.overwrite b (change.place spot b) change.added) spot.start
        (change.place spot b - spot.start + change.added.length) e := by
  have hle := place_le b spot change
  have hge := start_le_place b spot change
  have hlt := alignedEnd_lt (change.place spot b + change.added.length)
  have hdata : spot.start + (change.place spot b - spot.start + change.added.length)
    = change.place spot b + change.added.length := by omega
  unfold growth at hroom
  by_cases hparams : change = .append []
  · subst hparams
    cases h
    exact .inl ⟨rfl, rfl⟩
  have hplaceable : change = .trailer ∨ Placeable b spot.start spot.size change.added := by
    cases change with
    | append params =>
      have hne : params ≠ [] := fun hnil => hparams (congrArg _ hnil)
      exact .inr ⟨paramLines_ne_nil hne, by omega, Nat.le_trans (Nat.add_le_add_right hle _)
        (by omega)⟩
    | trailer => exact .inl rfl
  rw [apply_eq_close hplaceable] at h
  refine .inr (unclosable_of_close_error ?_ h)
  rw [hdata, Bytes.length_overwrite (by omega)]
  omega

/-- A file that is filled up as far as it has to be ends where it did or where it has to. -/
theorem drop_resize_max (data : Bytes) (stop : Nat) :
    (Bytes.resize data (max data.length stop)).drop stop = data.drop stop := by
  rw [Bytes.resize, List.take_of_length_le (Nat.le_max_left _ _), List.drop_append,
    Bytes.zeros, List.drop_replicate, show max data.length stop - data.length
      - (stop - data.length) = 0 by omega, List.replicate_zero, List.append_nil]

/-- What is written of a buffer that was changed. -/
theorem changedFile_take {stop : Nat}
    (h : change.apply spot (grown data spot change.added.length) = (.ok stop, b)) :
    ChangedFile data change.added (change.place spot data) stop (b.take (max data.length stop)) ∧
      ∃ t, verify (b.take (max data.length stop)) stop = .ok t ∧ t.dataStart = spot.start := by
  obtain ⟨hclosable, hstop, hb, hroom, -⟩ := apply_eq_ok h
  rw [place_grown] at hclosable hstop hb hroom
  have hge := start_le_place data spot change
  have hle := place_le data spot change
  generalize change.place spot data = place at hclosable hstop hb hroom hge hle ⊢
  have haligned := le_alignedEnd (place + change.added.length)
  have hstop_le : stop ≤ spot.start + spot.size + growth change.added.length := by
    have hlt := alignedEnd_lt (place + change.added.length)
    unfold growth
    omega
  have hdata : spot.start + (place + change.added.length - spot.start)
    = place + change.added.length := by omega
  have hfilled := Bytes.length_overwrite hroom
  have hfit := hclosable.room
  have htrailer := hclosable.verify_closed
  simp only [hdata] at hfit htrailer
  have hgrown := le_length_grown data spot change.added.length
  have hlen : b.length = (grown data spot change.added.length).length := by
    rw [hb, length_closed haligned hfit, hfilled]
  have hn : max data.length stop ≤ b.length := by
    have : data.length ≤ (grown data spot change.added.length).length := by
      rw [grown, List.length_append]
      exact Nat.le_add_right _ _
    omega
  refine ⟨⟨?_, ?_, ?_, ?_⟩, ?_⟩
  · rw [List.length_take, Nat.min_eq_left hn]
  · rw [List.take_take, Nat.min_eq_left (by omega), hb, take_closed haligned hfit (by omega),
      Bytes.take_overwrite (by omega) (Nat.le_refl _),
      take_grown data spot (by omega)]
  · rw [Bytes.slice?_take (by omega) hn, hb, Bytes.slice?_of_take_eq (Nat.le_refl _)
      (take_closed haligned hfit (Nat.le_refl _)) (length_closed haligned hfit)]
    exact Bytes.slice?_overwrite hroom
  · rw [List.drop_take, hb, drop_closed haligned hfit (by omega),
      Bytes.drop_overwrite hroom (by omega), ← List.drop_take, take_grown data spot (by omega),
      drop_resize_max]
  · rw [verify_take (Nat.le_max_right _ _) hn, hstop, hb]
    obtain ⟨t, ht, hstart, -⟩ := htrailer
    exact ⟨t, ht, hstart⟩

end

/-! ## Runs -/

section
variable {s : Session} {data : Bytes} {spot : RegionSpot} {change : RegionChange}

theorem exec_command (hread : s.store.read spot.input = .ok data)
    (hfits : spot.start + spot.size + growth change.added.length < UInt64.size) :
    ((change.command spot).run : Action (StateM Session) Unit).exec s =
      match change.apply spot (grown data spot change.added.length) with
      | (.error e, _) => (.error (change.failure spot e), s)
      | (.ok stop, b) =>
        match s.store.write spot.target (b.take (max data.length stop)) with
        | .ok store => (.ok (), { s with store })
        | .error fault => (.error ((Failure.ofFault fault).within
            ("Failed to write data: " ++ quoteText spot.target)), s) := by
  have hrun : ((change.command spot).run : Action (StateM Session) Unit)
      = changeSpot spot change.context change.added.length (change.apply spot) := by
    cases change <;> rfl
  have hspot : (readSpot spot change.added.length : Action (StateM Session) (Bytes × Nat)).exec s
      = (.ok (grown data spot change.added.length, data.length), s) := by
    unfold readSpot
    rw [Action.exec_bind_ok (exec_readFile _ hread)]
    simp only [if_neg (Nat.not_le.2 hfits)]
    rfl
  rw [hrun, changeSpot, Action.exec_bind_ok hspot]
  cases happly : change.apply spot (grown data spot change.added.length) with
  | mk r b =>
    simp only [happly]
    cases r with
    | error e => exact Action.exec_bind_error (Action.exec_ofExcept_error rfl s)
    | ok stop =>
      rw [Action.exec_bind_ok (Action.exec_ofExcept_ok rfl s)]
      simp only []
      cases hwrite : s.store.write spot.target (b.take (max data.length stop)) with
      | ok store => exact exec_writeFile _ hwrite
      | error fault => exact exec_writeFile_error _ hwrite

/-- A command is refused and leaves the session, or it writes the changed file. -/
theorem exec_command_cases (hread : s.store.read spot.input = .ok data)
    (hfits : spot.start + spot.size + growth change.added.length < UInt64.size) :
    let place := change.place spot data
    let stop := alignedEnd (place + change.added.length) + trailerSize
    (∃ e, Refused s data spot change e ∧
      ((change.command spot).run : Action (StateM Session) Unit).exec s = (.error e, s)) ∨
    ∃ file store, s.store.write spot.target file = .ok store ∧
      ((change.command spot).run : Action (StateM Session) Unit).exec s
        = (.ok (), { s with store }) ∧
      ChangedFile data change.added place stop file ∧
      (∃ t, verify file stop = .ok t ∧ t.dataStart = spot.start) ∧
      spot.start + spot.size < stop := by
  intro place stop
  have hexec := exec_command hread hfits
  cases happly : change.apply spot (grown data spot change.added.length) with
  | mk r b =>
    rw [happly] at hexec
    cases r with
    | error e =>
      have hrefused := apply_eq_error (le_length_grown data spot _) happly
      rw [place_grown] at hrefused
      rcases hrefused with ⟨hnone, rfl⟩ | hrefused
      · exact .inl ⟨_, .noParams hnone, hexec⟩
      · exact .inl ⟨_, .region hrefused, hexec⟩
    | ok stop' =>
      obtain ⟨-, hstop, -, -, hlt⟩ := apply_eq_ok happly
      rw [place_grown] at hstop
      obtain ⟨hchanged, hverify⟩ := changedFile_take happly
      obtain rfl : stop' = stop := hstop
      simp only [] at hexec
      cases hwrite : s.store.write spot.target (b.take (max data.length stop)) with
      | error fault =>
        rw [hwrite] at hexec
        exact .inl ⟨_, .target (Store.write_error hwrite []), hexec⟩
      | ok store =>
        rw [hwrite] at hexec
        exact .inr ⟨_, store, hwrite, hexec, hchanged, hverify, hlt⟩

theorem exec_check {input : String} {stop : Option Nat} {t : Trailer}
    (hread : s.store.read input = .ok data)
    (hverify : verify data (stop.getD data.length) = .ok t) :
    (check input stop : Action (StateM Session) Unit).exec s
      = (.ok (), { s with output := s.output ++ (t.text ++ "\n") }) := by
  unfold check
  rw [Action.exec_bind_ok (exec_readFile _ hread),
    Action.exec_bind_ok (Action.exec_ofExcept_ok hverify s)]
  rfl

/-- **Regions in files.** A command that fails changes no file, and is not refused for a lack of
room. One that ends well changes its file between the place of the change and the end of the new
trailer, which `check` finds there, and without being told where if nothing stood behind the
region. -/
theorem exec_regionChange (hread : s.store.read spot.input = .ok data)
    (hfits : spot.start + spot.size + growth change.added.length < UInt64.size) :
    let place := change.place spot data
    let stop := alignedEnd (place + change.added.length) + trailerSize
    (∀ e s', ((change.command spot).run : Action (StateM Session) Unit).exec s = (.error e, s') →
      s' = s ∧ Refused s data spot change e ∧ e ≠ change.failure spot .noBuffer ∧
        ∀ needed available, e ≠ change.failure spot (.tooSmall needed available)) ∧
    ∀ s', ((change.command spot).run : Action (StateM Session) Unit).exec s = (.ok (), s') →
      ∃ (file : Bytes) (t : Trailer), s.store.write spot.target file = .ok s'.store ∧
        s'.store.read spot.target = .ok file ∧
        ChangedFile data change.added place stop file ∧
        spot.start + spot.size < stop ∧ verify file stop = .ok t ∧ t.dataStart = spot.start ∧
        (check spot.target (some stop) : Action (StateM Session) Unit).exec s'
          = (.ok (), { s' with output := s'.output ++ (t.text ++ "\n") }) ∧
        (data.length ≤ spot.start + spot.size → file.length = stop ∧
          (check spot.target none : Action (StateM Session) Unit).exec s'
            = (.ok (), { s' with output := s'.output ++ (t.text ++ "\n") })) := by
  intro place stop
  rcases exec_command_cases hread hfits with ⟨e, hrefused, hexec⟩ |
    ⟨file, store, hwrite, hexec, hchanged, ⟨t, ht, hstart⟩, hlt⟩
  · refine ⟨fun e' s' herror => ?_, fun s' hok => ?_⟩
    · cases hexec.symm.trans herror
      exact ⟨rfl, hrefused, hrefused.not_room⟩
    · cases hexec.symm.trans hok
  · refine ⟨fun e' s' herror => ?_, fun s' hok => ?_⟩
    · cases hexec.symm.trans herror
    · cases hexec.symm.trans hok
      have hfile := Store.read_of_write hwrite
      refine ⟨file, t, hwrite, hfile, hchanged, hlt, ht, hstart, exec_check hfile ht,
        fun hend => ?_⟩
      have hlen : file.length = stop := hchanged.length.trans (Nat.max_eq_right (by omega))
      exact ⟨hlen, exec_check hfile (by rw [Option.getD_none, hlen]; exact ht)⟩

end

/-- The current directory holds a file that is all one region. -/
def regionSession : Session where
  store := ⟨["home"], [(["home"], .directory), (["home", "boot.cfg"], .file fullRegion)]⟩
  output := ""

/-- `c=3` is added to a region that fills its file, in place of its trailer: the file grows by four
bytes, and the new trailer is found at its end. -/
theorem exec_regionChange_full : ∃ (s' : Session) (file : Bytes) (t : Trailer),
    (((RegionChange.append ["c=3"]).command ⟨"boot.cfg", none, 0, 28⟩).run :
      Action (StateM Session) Unit).exec regionSession = (.ok (), s') ∧
    s'.store.read "boot.cfg" = .ok file ∧ file.length = 32 ∧
    verify file 32 = .ok t ∧ t.dataStart = 0 ∧
    ChangedFile fullRegion [0x63, 0x3D, 0x33, 0x0A] 8 32 file ∧
    (check "boot.cfg" none : Action (StateM Session) Unit).exec s'
      = (.ok (), { s' with output := s'.output ++ (t.text ++ "\n") }) := by
  obtain ⟨-, hok⟩ := @exec_regionChange regionSession fullRegion ⟨"boot.cfg", none, 0, 28⟩
    (.append ["c=3"]) rfl (by decide)
  have hexec : ((((RegionChange.append ["c=3"]).command ⟨"boot.cfg", none, 0, 28⟩).run :
      Action (StateM Session) Unit).exec regionSession).1 = .ok () := by rfl
  obtain ⟨file, t, -, hread, hchanged, -, hverify, hstart, -, hend⟩ := hok _ (Prod.ext hexec rfl)
  obtain ⟨hlen, hcheck⟩ := hend (by decide)
  exact ⟨_, file, t, Prod.ext hexec rfl, hread, hlen, hverify, hstart, hchanged, hcheck⟩

end AndroidBoot.Cli
