import AndroidBoot.Cli.BootImages
import AndroidBoot.Proofs.Storage.Stores

/-!
# Actions in sessions

What an action makes of a session: its result and the session after it. An action made of two goes
on with the session that the first one left, and ends at the first failure.

    (x >>= f).exec s = (f a).exec s'         if x.exec s = (.ok a, s')       (exec_bind_ok)
    (x >>= f).exec s = (.error e, s')        if x.exec s = (.error e, s')    (exec_bind_error)
-/

namespace AndroidBoot.Cli

/-- The result of an action that starts in a session, and the session after it. -/
def Action.exec {α : Type} (x : Action (StateM Session) α) (s : Session) :
    Except Failure α × Session :=
  StateT.run (ExceptT.run x) s

namespace Action

variable {α β : Type} {s s' : Session}

@[simp] theorem exec_pure (a : α) (s : Session) : exec (pure a) s = (.ok a, s) := rfl

@[simp] theorem exec_ofExcept {ε : Type} (failure : ε → Failure) (r : Except ε α) (s : Session) :
    exec (ofExcept failure r) s = (r.mapError failure, s) := rfl

theorem exec_bind (x : Action (StateM Session) α) (f : α → Action (StateM Session) β)
    (s : Session) : exec (x >>= f) s = match x.exec s with
      | (.ok a, s') => (f a).exec s'
      | (.error e, s') => (.error e, s') := by
  unfold exec
  rw [ExceptT.run_bind, StateT.run_bind]
  show (match StateT.run (ExceptT.run x) s with | (r, s') => _) = _
  obtain ⟨r, s'⟩ := StateT.run (ExceptT.run x) s
  cases r <;> rfl

theorem exec_bind_ok {x : Action (StateM Session) α} {f : α → Action (StateM Session) β} {a : α}
    (h : x.exec s = (.ok a, s')) : exec (x >>= f) s = (f a).exec s' := by
  rw [exec_bind, h]

theorem exec_bind_error {x : Action (StateM Session) α} {f : α → Action (StateM Session) β}
    {e : Failure} (h : x.exec s = (.error e, s')) : exec (x >>= f) s = (.error e, s') := by
  rw [exec_bind, h]

/-- An action that ends well went through both of its parts. -/
theorem exec_bind_eq_ok {x : Action (StateM Session) α} {f : α → Action (StateM Session) β} {b : β}
    (h : exec (x >>= f) s = (.ok b, s')) :
    ∃ a t, x.exec s = (.ok a, t) ∧ (f a).exec t = (.ok b, s') := by
  rw [exec_bind] at h
  cases hx : x.exec s with
  | mk r t =>
    rw [hx] at h
    cases r with
    | ok a => exact ⟨a, t, rfl, h⟩
    | error e => cases h

theorem exec_ofExcept_ok {ε : Type} {failure : ε → Failure} {r : Except ε α} {a : α}
    (h : r = .ok a) (s : Session) :
    exec (ofExcept failure r : Action (StateM Session) α) s = (.ok a, s) := by
  rw [exec_ofExcept, h]
  rfl

theorem exec_ofExcept_error {ε : Type} {failure : ε → Failure} {r : Except ε α} {e : ε}
    (h : r = .error e) (s : Session) :
    exec (ofExcept failure r : Action (StateM Session) α) s = (.error (failure e), s) := by
  rw [exec_ofExcept, h]
  rfl

theorem exec_ofExcept_eq_ok {ε : Type} {failure : ε → Failure} {r : Except ε α} {a : α}
    (h : exec (ofExcept failure r) s = (.ok a, s')) : r = .ok a ∧ s' = s := by
  rw [exec_ofExcept] at h
  cases r with
  | ok b =>
    cases h
    exact ⟨rfl, rfl⟩
  | error e => cases h

theorem exec_attempt {ε : Type} (failure : ε → Failure) (x : StateM Session (Except ε α))
    (s : Session) :
    exec (attempt failure x) s = ((StateT.run x s).1.mapError failure, (StateT.run x s).2) := by
  unfold attempt
  rw [exec_bind]
  rfl

end Action

/-! ## Files -/

variable {s : Session}

theorem run_write (name : String) (data : Bytes) (s : Session) :
    StateT.run (Files.write name data : StateM Session (Except Fault Unit)) s
      = match s.store.write name data with
        | .ok store => (.ok (), { s with store })
        | .error fault => (.error fault, s) := by
  show (Session.change (fun store => match store.write name data with
    | .ok store' => (.ok (), store')
    | .error fault => (.error fault, store)) : StateM Session (Except Fault Unit)) s = _
  unfold Session.change
  simp only []
  cases s.store.write name data <;> rfl

theorem exec_readFile {name : String} {data : Bytes} (context : String)
    (h : s.store.read name = .ok data) :
    (readFile context name : Action (StateM Session) Bytes).exec s = (.ok data, s) := by
  unfold readFile
  rw [Action.exec_attempt]
  show ((s.store.read name).mapError _, s) = _
  rw [h]
  rfl

theorem exec_writeFile {name : String} {data : Bytes} {store : Store} (context : String)
    (h : s.store.write name data = .ok store) :
    (writeFile context name data : Action (StateM Session) Unit).exec s
      = (.ok (), { s with store }) := by
  unfold writeFile
  rw [Action.exec_attempt, run_write, h]
  rfl

theorem exec_writeFile_error {name : String} {data : Bytes} {fault : Fault} (context : String)
    (h : s.store.write name data = .error fault) :
    (writeFile context name data : Action (StateM Session) Unit).exec s
      = (.error ((Failure.ofFault fault).within context), s) := by
  unfold writeFile
  rw [Action.exec_attempt, run_write, h]
  rfl

theorem exec_writeFile_eq_ok {s' : Session} {name context : String} {data : Bytes}
    (h : (writeFile context name data : Action (StateM Session) Unit).exec s = (.ok (), s')) :
    ∃ store, s.store.write name data = .ok store ∧ s' = { s with store } := by
  cases hwrite : s.store.write name data with
  | ok store =>
    rw [exec_writeFile _ hwrite] at h
    cases h
    exact ⟨store, rfl, rfl⟩
  | error fault =>
    rw [exec_writeFile_error _ hwrite] at h
    cases h

/-- Showing a header changes nothing that is stored. -/
theorem exec_show (v : HeaderView) (h : ImageHeader) (s : Session) :
    ∃ output, (v.show h : Action (StateM Session) Unit).exec s = (.ok (), ⟨s.store, output⟩) := by
  unfold HeaderView.show
  split
  · exact ⟨s.output, rfl⟩
  · exact ⟨_, rfl⟩

end AndroidBoot.Cli
