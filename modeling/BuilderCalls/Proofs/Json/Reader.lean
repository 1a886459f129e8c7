import BuilderCalls.Json.Reader
import BuilderCalls.Proofs.Json.Members

/-!
# What the reader yields

No object that the reader yields has a key twice, for a member that is read again
takes the place of the first.  Every container that is still open has this
property already, so that one token preserves it.
-/

namespace BuilderCalls

namespace Members

theorem keys_insert_subset (members : Members) (key : String) (value : Json) :
    (members.insert key value).keys ⊆ key :: members.keys := by
  induction members with
  | nil => simp [Members.insert, Members.keys]
  | cons first rest ih =>
      obtain ⟨key', value'⟩ := first
      unfold Members.insert
      split
      · simp [keys_cons]
      · rw [keys_cons, keys_cons]
        intro other hother
        rcases List.mem_cons.mp hother with rfl | hother
        · exact .tail _ (.head _)
        · rcases List.mem_cons.mp (ih hother) with rfl | hother
          · exact .head _
          · exact .tail _ (.tail _ hother)

theorem keys_insert_nodup {members : Members} (hdistinct : members.keys.Nodup) (key : String)
    (value : Json) : (members.insert key value).keys.Nodup := by
  induction members with
  | nil => exact List.nodup_singleton key
  | cons first rest ih =>
      obtain ⟨key', value'⟩ := first
      obtain ⟨hfresh, hrest⟩ := List.nodup_cons.mp hdistinct
      unfold Members.insert
      split
      · next hsame =>
          subst hsame
          exact List.nodup_cons.mpr ⟨hfresh, hrest⟩
      · next hne =>
          refine List.nodup_cons.mpr ⟨fun hmem => ?_, ih hrest⟩
          rcases List.mem_cons.mp (keys_insert_subset rest key value hmem) with hsame | hmem
          · exact hne hsame
          · exact hfresh hmem

theorem mem_of_mem_insert {members : Members} {key : String} {value : Json}
    {member : String × Json} (hmember : member ∈ members.insert key value) :
    member = (key, value) ∨ member ∈ members := by
  induction members with
  | nil => exact .inl (List.mem_singleton.mp hmember)
  | cons first rest ih =>
      obtain ⟨key', value'⟩ := first
      unfold Members.insert at hmember
      split at hmember
      · exact (List.mem_cons.mp hmember).imp_right (.tail _)
      · rcases List.mem_cons.mp hmember with rfl | hmember
        · exact .inr (.head _)
        · exact (ih hmember).imp_right (.tail _)

end Members

namespace Json

theorem Distinct.insert {members : Members} (hmembers : (Json.object members).Distinct)
    (key : String) {value : Json} (hvalue : value.Distinct) :
    (Json.object (members.insert key value)).Distinct := by
  cases hmembers with
  | object hkeys hmembers =>
      refine .object (Members.keys_insert_nodup hkeys key value) fun member hmember => ?_
      rcases Members.mem_of_mem_insert hmember with rfl | hmember
      · exact hvalue
      · exact hmembers member hmember

def Frame.Distinct : Frame → Prop
  | .array items => (Json.array items).Distinct
  | .object members _ => (Json.object members).Distinct

namespace Reading

/-- The containers that are still open around what is due. -/
def frames : Reading → List Frame
  | .valueDue frames | .firstItem frames | .moreItems _ frames | .keyDue _ _ frames
  | .colonDue _ _ frames | .moreMembers _ frames => frames
  | .finished _ => []

/-- The innermost container, or the value that was read. -/
def inner? : Reading → Option Json
  | .valueDue _ | .firstItem _ => none
  | .moreItems items _ => some (.array items)
  | .keyDue members _ _ | .colonDue members _ _ | .moreMembers members _ => some (.object members)
  | .finished value => some value

structure Distinct (reading : Reading) : Prop where
  inner : ∀ value ∈ reading.inner?, value.Distinct
  frames : ∀ frame ∈ reading.frames, frame.Distinct

theorem distinct_deliver {value : Json} {frames : List Frame} (hvalue : value.Distinct)
    (hframes : ∀ frame ∈ frames, frame.Distinct) : (deliver value frames).Distinct := by
  cases frames with
  | nil => exact ⟨by rintro _ ⟨⟩; exact hvalue, nofun⟩
  | cons frame frames =>
      obtain ⟨hframe, hframes'⟩ := List.forall_mem_cons.mp hframes
      cases frame with
      | array items =>
          refine ⟨?_, hframes'⟩
          rintro _ ⟨⟩
          cases hframe with
          | array hitems => exact .array (List.forall_mem_cons.mpr ⟨hvalue, hitems⟩)
      | object members key =>
          refine ⟨?_, hframes'⟩
          rintro _ ⟨⟩
          exact hframe.insert key hvalue

theorem distinct_of_begin? {frames : List Frame} {token : Token} {next : Reading}
    (hframes : ∀ frame ∈ frames, frame.Distinct) (hbegin : begin? frames token = some next) :
    next.Distinct := by
  unfold begin? at hbegin
  split at hbegin
  · cases hbegin; exact distinct_deliver .null hframes
  · cases hbegin; exact distinct_deliver (.bool _) hframes
  · cases hbegin; exact distinct_deliver (.number _) hframes
  · cases hbegin; exact distinct_deliver (.string _) hframes
  · split at hbegin
    · cases hbegin
      exact ⟨nofun, hframes⟩
    · cases hbegin
  · split at hbegin
    · cases hbegin
      refine ⟨?_, hframes⟩
      rintro _ ⟨⟩
      exact .object List.nodup_nil nofun
    · cases hbegin
  · cases hbegin

theorem Distinct.step {reading next : Reading} {token : Token} (hreading : reading.Distinct)
    (hstep : reading.step? token = some next) : next.Distinct := by
  obtain ⟨hinner, hframes⟩ := hreading
  unfold step? at hstep
  split at hstep
  · exact distinct_of_begin? hframes hstep
  · cases hstep
    exact distinct_deliver (.array nofun) hframes
  · refine distinct_of_begin? (List.forall_mem_cons.mpr ⟨?_, hframes⟩) hstep
    exact .array nofun
  · cases hstep
    exact ⟨nofun, List.forall_mem_cons.mpr ⟨hinner _ rfl, hframes⟩⟩
  · cases hstep
    cases hinner _ rfl with
    | array hitems => exact distinct_deliver (.array fun item hitem =>
        hitems item (List.mem_reverse.mp hitem)) hframes
  · cases hstep
    exact ⟨hinner, hframes⟩
  · cases hstep
    exact distinct_deliver (hinner _ rfl) hframes
  · cases hstep
    exact ⟨nofun, List.forall_mem_cons.mpr ⟨hinner _ rfl, hframes⟩⟩
  · cases hstep
    exact ⟨hinner, hframes⟩
  · cases hstep
    exact distinct_deliver (hinner _ rfl) hframes
  · cases hstep

theorem Distinct.run {reading last : Reading} {tokens : List Token} (hreading : reading.Distinct)
    (hrun : reading.run? tokens = some last) : last.Distinct := by
  induction tokens generalizing reading with
  | nil =>
      cases hrun
      exact hreading
  | cons token tokens ih =>
      obtain ⟨next, hstep, hrun⟩ := Option.bind_eq_some_iff.mp hrun
      exact ih (hreading.step hstep) hrun

end Reading

theorem distinct_of_ofText? {text : String} {value : Json} (hread : ofText? text = some value) :
    value.Distinct := by
  obtain ⟨tokens, -, hread⟩ := Option.bind_eq_some_iff.mp hread
  obtain ⟨last, hrun, hresult⟩ := Option.bind_eq_some_iff.mp hread
  have hlast : last.Distinct := Reading.Distinct.run ⟨by rintro _ ⟨⟩, by rintro _ ⟨⟩⟩ hrun
  cases last with
  | finished result =>
      cases hresult
      exact hlast.inner _ rfl
  | valueDue | firstItem | moreItems | keyDue | colonDue | moreMembers => cases hresult

end Json

end BuilderCalls
