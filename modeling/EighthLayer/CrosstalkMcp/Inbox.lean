import EighthLayer.CrosstalkMcp.Delivery

/-!
# EighthLayer.CrosstalkMcp.Inbox

What `check_inbox` lists, and whom a message has been delivered to.

The deliveries of a message are rows of their own; the listing goes by the column `to_session` of the
message. What is listed has been delivered, and what has been delivered to a session is listed exactly
if the session is the one of the column (`inbox_lists_iff`). A message to a group or a help thread, or
a reply among more than two, has other recipients too.
-/

namespace EighthLayer.CrosstalkMcp

open Lib

/-- What is listed, if the limit allows. -/
theorem mem_listInboxMessages {s : McpStore} {session : String} {limit : Nat}
    {tag : Option (Option String)} {m : Message}
    (hlimit : s.messages.rows.countP (fun m => m.toSession = session) ≤ limit) :
    m ∈ s.listInboxMessages session limit tag ↔
      m ∈ s.messages ∧ m.toSession = session ∧ tag.all (m.toTag = ·) = true := by
  have hlength : (((s.messages.rows.filter fun m => m.toSession = session && tag.all (m.toTag = ·)
      ).insertionSort fun m m' => m.ts ≤ m'.ts).reverse).length ≤ limit := by
    rw [List.length_reverse, List.length_insertionSort, ← List.countP_eq_length_filter]
    refine Nat.le_trans (List.countP_mono_left fun m _ hm => ?_) hlimit
    exact (Bool.and_eq_true_iff.mp hm).1
  unfold McpStore.listInboxMessages
  rw [List.take_of_length_le hlength, List.mem_reverse, List.mem_insertionSort, List.mem_filter,
    Bool.and_eq_true, decide_eq_true_eq]
  exact Iff.rfl

/-- **The inbox.** At any time of a run, what has been delivered to a session is in its inbox, in the
scope of the message, exactly if the session is the addressee. Once its sender has sent a message,
what a session lists has been delivered to it; and what has been delivered to it is listed exactly if
it is the addressee in case the message is for it. -/
theorem inbox_lists_iff {ss : List Server} (hdistinct : Distinct ss)
    (hdelivers : ∀ s ∈ ss, ∀ act ∈ s.actions, act.2.delivers = true) (schedule : List Nat)
    {m : Message} (hm : m ∈ ((servers ss).run schedule).world.db.messages) (session : String)
    {limit : Nat} (hlimit : ((servers ss).run schedule).world.db.messages.rows.countP
      (fun m => m.toSession = session) ≤ limit) :
    (HasDelivery ((servers ss).run schedule).world.db m.id session →
      (m ∈ ((servers ss).run schedule).world.db.listInboxMessages session limit (some m.toTag) ↔
        m.toSession = session)) ∧
    ∀ i, SentBy i m.id ((servers ss).run schedule).world.log →
      (∀ tag, m ∈ ((servers ss).run schedule).world.db.listInboxMessages session limit tag →
        HasDelivery ((servers ss).run schedule).world.db m.id session) ∧
      ((HasDelivery ((servers ss).run schedule).world.db m.id session →
          m ∈ ((servers ss).run schedule).world.db.listInboxMessages session limit (some m.toTag)) ↔
        (IsFor ((servers ss).run schedule).world.db m session → m.toSession = session)) := by
  have hsound := (servers_hold hdistinct hdelivers schedule).inv
  have hlists : m ∈ ((servers ss).run schedule).world.db.listInboxMessages session limit
      (some m.toTag) ↔ m.toSession = session := by
    rw [mem_listInboxMessages hlimit]
    exact ⟨fun h => h.2.1, fun hto => ⟨hm, hto, decide_eq_true rfl⟩⟩
  refine ⟨fun _ => hlists, fun i hsent => ?_⟩
  -- the sender has inserted a delivery to each of the recipients
  obtain ⟨m', hm', hid, t, ht, hall⟩ := hsound.answered i m.id hsent
  cases Table.eq_of_key_eq hm' hm hid
  have hfor_iff : IsFor ((servers ss).run schedule).world.db m session ↔
      HasDelivery ((servers ss).run schedule).world.db m.id session := by
    constructor
    · intro hfor
      obtain ⟨t', ht', hmem⟩ := hfor
      cases ht.symm.trans ht'
      exact hall session hmem
    · intro hdelivery
      obtain ⟨d, hd, hdid, hdsession⟩ := hdelivery
      obtain ⟨m'', hm'', hid', hfor, -⟩ := hsound.recipient d hd
      cases Table.eq_of_key_eq hm'' hm (hid'.trans hdid)
      rw [← hdsession]
      exact hfor
  refine ⟨fun tag hlisted => ?_, ?_⟩
  · obtain ⟨-, hto, -⟩ := (mem_listInboxMessages hlimit).mp hlisted
    rw [← hfor_iff, ← hto]
    exact hsound.addressee m hm
  · rw [hfor_iff, hlists]

/-- Bert finds the message that Anna has sent him. -/
theorem inbox_lists_sample :
    ∃ m ∈ ((servers sampleDelivery).run (List.replicate 6 0)).world.db.messages,
      SentBy 0 m.id ((servers sampleDelivery).run (List.replicate 6 0)).world.log ∧
      HasDelivery ((servers sampleDelivery).run (List.replicate 6 0)).world.db m.id "bert" ∧
      m ∈ ((servers sampleDelivery).run (List.replicate 6 0)).world.db.listInboxMessages "bert" 20
        (some m.toTag) := by
  have hrows : ((servers sampleDelivery).run (List.replicate 6 0)).world.db.messages.rows ≠ [] := by
    decide +kernel
  have hm := List.head_mem hrows
  have hsent : SentBy 0 (List.head _ hrows).id
      ((servers sampleDelivery).run (List.replicate 6 0)).world.log :=
    .inl ⟨rfl, ⟨_, rfl⟩, _, .tail _ (.tail _ (.head _)), rfl, _, rfl, rfl⟩
  have hdelivery : HasDelivery ((servers sampleDelivery).run (List.replicate 6 0)).world.db
      (List.head _ hrows).id "bert" :=
    ⟨_, .head _, rfl, rfl⟩
  have hcount : ((servers sampleDelivery).run (List.replicate 6 0)).world.db.messages.rows.countP
      (fun m => m.toSession = "bert") ≤ 20 := by
    decide +kernel
  obtain ⟨-, hall⟩ := inbox_lists_iff sampleDelivery_distinct (by decide)
    (List.replicate 6 0) hm "bert" hcount
  obtain ⟨-, hcomplete⟩ := hall 0 hsent
  exact ⟨_, hm, hsent, hdelivery, hcomplete.mpr (fun _ => rfl) hdelivery⟩

/-! ### A group

Anna opens a group with Bert and Cleo. -/

/-- She has answered her client, and Cleo looks at her inbox. -/
def sampleGroup : List Server :=
  [⟨"anna", 0, [(.numbered "a" "10:00", .group ["bert", "cleo"] "hello")]⟩,
   ⟨"cleo", 0, [(.numbered "b" "10:01", .checkInbox 20 none)]⟩]

/-- The message of Anna's, delivered to Cleo, is not in her inbox. -/
theorem group_not_listed :
    let w := ((servers sampleGroup).run (List.replicate 9 0)).world
    ("a1", "cleo", none) ∈ w.db.deliveries.rows.map
        (fun d => (d.messageId, d.session, d.deliveredAt)) ∧
      w.db.messages.rows.map (fun m => (m.id, m.toTag)) = [("a1", none)] ∧
      w.db.listInboxMessages "cleo" 20 (some none) = [] := by
  decide +kernel

end EighthLayer.CrosstalkMcp
