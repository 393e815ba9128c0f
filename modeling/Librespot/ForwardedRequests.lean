import Librespot.Runs
import Librespot.ApiForwarding

/-!
The requests that the forwarder passes on and what becomes of them. A request is in one
place until it is answered; it is lost when the forwarder comes to send it on a channel
that is closed or has no reader, and a lost request stays lost. So the requests of a run
are answered when every step leaves a reader to the channel that the forwarder sends on.
-/
namespace Librespot.Forwarding
open Librespot.Runs Librespot.Channels

variable {s s' : State} {e : Event}

/-! ### Waiting for good -/

theorem jammed_iff (s : State) : Jammed s ↔
    ∃ q, s.handlers .logout = .pushing q ∧ (s.players q).stop.Full ∧ (s.players q).place.Away := by
  cases handler : s.handlers .logout <;> simp [Jammed,handler]

/-- What changes of one player matters if the logout loop has a token for it. -/
theorem jammed_setPlayer (s : State) (p : Nat) (player : AppPlayer) : Jammed (s.setPlayer p player) ↔
    Jammed s ∧ s.handlers .logout ≠ .pushing p ∨ s.handlers .logout = .pushing p ∧ player.stop.Full ∧ player.place.Away := by
  simp only [jammed_iff,State.setPlayer,Function.update_apply]
  grind

theorem jammed_setPlace {p : Nat} {place : Place} (inside : ¬ (s.players p).place.Away) :
    Jammed (s.setPlace p place) ↔ Jammed s ∨ place.Away ∧ s.handlers .logout = .pushing p ∧ (s.players p).stop.Full := by
  rw [State.setPlace,jammed_setPlayer,jammed_iff]
  grind

/-- The logout loop is jammed after a step if it was before or the step jams it. -/
theorem jammed_step (inv : Inv s) (moves : Moves s s' e) : Jammed s' ↔ Jammed s ∨ Jams s e := by
  -- a step of a player counts where the logout loop closes that player, a step of a handler where it is the logout loop's
  cases moves with
  | request idle => simp [Jammed,Jams]
  | refuse r checking nobody => simp [Jammed,Jams,State.reply]
  | check r checking => simp [Jammed,Jams]
  | readCh r reading => simp [Jammed,Jams]
  | forward p r c sending isOpen selecting apiRecv =>
    refine (jammed_setPlace (by simp [selecting,Place.Away])).trans ?_
    simp [Jams,Jammed,Place.Away]
  | sendClosed r c sending closed => simp [Jammed,Jams,State.crash]
  | connected p connecting =>
    refine (jammed_setPlace (by simp [connecting,Place.Away])).trans ?_
    simp [Jams,Place.Away]
  | unconnected p player connecting closed =>
    obtain ⟨_,full,place⟩ := closeSelf_spec (inv.tokens p) closed
    have away : player.place.Away := by
      rcases place with place | place <;> rw [place] <;> trivial
    rw [jammed_setPlayer,jammed_iff]
    simp only [Jams,full,away,closed]
    grind [Place.Away]
  | stopped p value stop selecting received =>
    have room := (tokens_receive (inv.tokens p) received).2
    rw [jammed_setPlayer,jammed_iff]
    simp only [Jams,room]
    grind [Place.Away]
  | zero p selecting =>
    refine (jammed_setPlace (by simp [selecting,Place.Away])).trans ?_
    simp [Jams,Place.Away]
  | unsent p selecting =>
    refine (jammed_setPlace (by simp [selecting,Place.Away])).trans ?_
    simp [Jams,Place.Away]
  | command p managed => simp [Jams]
  | reply p r handling =>
    refine (jammed_setPlace (by simp [handling,Place.Away]) : Jammed (s.setPlace p .selecting) ↔ _).trans ?_
    simp [Jams,Place.Away]
  | leave p selecting =>
    refine (jammed_setPlace (by simp [selecting,Place.Away])).trans ?_
    simp [Jams,Place.Away]
  | logout p handler idle leaving next =>
    rcases next with rfl | rfl <;> simp [Jammed,Jams,State.setPlace,State.setPlayer,State.setHandler,idle]
  | login handler idle next => simp [Jammed,Jams,State.setHandler]
  | panic e panics =>
    cases e with
    | stop party => cases party <;> simp_all [Jammed,Jams,State.crash,Panics]
    | closeCh party => simp [Jammed,Jams,State.crash]
    | closePlayer party => simp [Jammed,Jams,State.crash]
    | command p => simp [Jammed,Jams,State.crash]
    | connect p connected =>
      cases connected with
      | false =>
        simp only [Panics] at panics
        simp [Jammed,Jams,State.crash,panics]
      | true => exact panics.elim
    | logged => simp [Jammed,Jams,State.crash]
    | _ => exact panics.elim
  | stop party q stopping current => cases party <;> simp [Jammed,Jams,State.setHandler,stopping,current]
  | push party q stop pushing sent =>
    have full := (tokens_send (inv.tokens q) sent).2
    have room : ¬ (s.players q).stop.Full := (send_ok sent).2.1
    cases party with
    | logout => simp [Jammed,Jams,State.setHandler,State.setPlayer,pushing,room]
    | serve =>
      refine (jammed_setPlayer s q { s.players q with stop := stop }).trans ?_
      rw [jammed_iff]
      simp only [Jams,pushing,full]
      grind
  | closePlayer party q closing managed =>
    cases party with
    | logout => simp [Jammed,Jams,State.setHandler,closing]
    | serve =>
      refine (jammed_setPlayer s q { s.players q with managed := false }).trans ?_
      rw [jammed_iff]
      simp only [Jams]
      grind
  | unset party unsetting => cases party <;> simp [Jammed,Jams,State.setHandler,unsetting]
  | closeCh party c closing apiCh isOpen => cases party <;> simp [Jammed,Jams,State.setHandler,closing]
  | create party creating => cases party <;> simp [Jammed,Jams,State.setHandler,creating]
  | uncreated party creating => cases party <;> simp [Jammed,Jams,State.setHandler,creating]
  | make party p making => cases party <;> simp [Jammed,Jams,State.setHandler,making]
  | assign party p assigning => cases party <;> simp [Jammed,Jams,State.setHandler,assigning]
  | start party p handler starting next =>
    have created := (inv.held party p (by simp [starting,Handler.Holds])).2
    cases party with
    | logout => rcases next with rfl | rfl <;> simp [Jammed,Jams,State.setHandler,starting]
    | serve =>
      refine (jammed_setPlayer s p { s.players p with place := .connecting, apiRecv := s.apiCh }).trans ?_
      rw [jammed_iff]
      simp only [Jams]
      grind [Place.Away]
  | logged logging q current => simp [Jammed,Jams,State.setHandler,logging]

theorem returns_or (place : Place) (before now : Prop) :
    place.Returns (before ∨ now) ↔ place.Returns before ∧ ¬ (place = .leaving ∧ (before ∨ now)) := by
  cases place <;> simp [Place.Returns]

/-- A player that the step is not about. -/
theorem reads_other {p c : Nat} (inv : Inv s) (moves : Moves s s' e)
    (shape : (s'.players p).apiRecv = (s.players p).apiRecv ∧ (s'.players p).place = (s.players p).place)
    (unstarted : ∀ party, e = .start party → s.handlers party ≠ .starting p)
    (other : ¬ (e = .connect p false ∧ (s.players p).closeSelf ≠ none) ∧ e ≠ .stopped p ∧ e ≠ .zero p ∧ e ≠ .unsent p ∧
      e ≠ .leave p) :
    Reads s' (.player p) c ↔ Reads s (.player p) c ∧ ¬ Stops e s (.player p) ∨
      ∃ party, e = .start party ∧ s.handlers party = .starting p ∧ s.apiCh = some c := by
  obtain ⟨unconnected,stopped,zero,unsent,leave⟩ := other
  simp only [Reads,Stops,jammed_step inv moves,shape.1,shape.2,returns_or (s.players p).place]
  constructor
  · rintro ⟨same,returns,staying⟩
    exact .inl ⟨⟨same,returns⟩,by grind⟩
  · rintro (⟨⟨same,returns⟩,goes⟩ | ⟨party,rfl,starting,_⟩)
    · exact ⟨same,returns,by grind⟩
    · exact absurd starting (unstarted party rfl)

theorem reads_player (inv : Inv s) (moves : Moves s s' e) (p c : Nat) : Reads s' (.player p) c ↔
    Reads s (.player p) c ∧ ¬ Stops e s (.player p) ∨ ∃ party, e = .start party ∧ s.handlers party = .starting p ∧ s.apiCh = some c := by
  have jammed := jammed_step inv moves
  have other := @reads_other s s' e p c inv moves
  cases moves with
  | request idle => exact other ⟨rfl,rfl⟩ (by rintro _ ⟨⟩) (by simp)
  | refuse r checking nobody => exact other ⟨rfl,rfl⟩ (by rintro _ ⟨⟩) (by simp)
  | check r checking => exact other ⟨rfl,rfl⟩ (by rintro _ ⟨⟩) (by simp)
  | readCh r reading => exact other ⟨rfl,rfl⟩ (by rintro _ ⟨⟩) (by simp)
  | forward q r ch sending isOpen selecting apiRecv =>
    by_cases same : p = q
    · subst same
      simp [Reads,Stops,State.setPlace,State.setPlayer,selecting,Place.Returns]
    · exact other (by simp [State.setPlace,State.setPlayer,same]) (by rintro _ ⟨⟩) (by simp)
  | sendClosed r c sending closed => exact other ⟨rfl,rfl⟩ (by rintro _ ⟨⟩) (by simp)
  | connected q connecting =>
    by_cases same : p = q
    · subst same
      simp [Reads,Stops,State.setPlace,State.setPlayer,connecting,Place.Returns]
    · exact other (by simp [State.setPlace,State.setPlayer,same]) (by rintro _ ⟨⟩) (by simp)
  | unconnected q player connecting closed =>
    by_cases same : p = q
    · subst same
      obtain ⟨_,_,place⟩ := closeSelf_spec (inv.tokens p) closed
      rcases place with place | place <;> simp [Reads,Stops,State.setPlayer,place,Place.Returns,closed]
    · exact other (by simp [State.setPlayer,same]) (by rintro _ ⟨⟩) (by simp [Ne.symm same])
  | stopped q value stop selecting received =>
    by_cases same : p = q
    · subst same
      simp [Reads,Stops,State.setPlayer,Place.Returns]
    · exact other (by simp [State.setPlayer,same]) (by rintro _ ⟨⟩) (by simp [Ne.symm same])
  | zero q selecting =>
    by_cases same : p = q
    · subst same
      simp [Reads,Stops,State.setPlace,State.setPlayer,Place.Returns]
    · exact other (by simp [State.setPlace,State.setPlayer,same]) (by rintro _ ⟨⟩) (by simp [Ne.symm same])
  | unsent q selecting =>
    by_cases same : p = q
    · subst same
      simp [Reads,Stops,State.setPlace,State.setPlayer,Place.Returns]
    · exact other (by simp [State.setPlace,State.setPlayer,same]) (by rintro _ ⟨⟩) (by simp [Ne.symm same])
  | command q managed => exact other ⟨rfl,rfl⟩ (by rintro _ ⟨⟩) (by simp)
  | reply q r handling =>
    by_cases same : p = q
    · subst same
      simp [Reads,Stops,State.reply,State.setPlace,State.setPlayer,handling,Place.Returns]
    · exact other (by simp [State.reply,State.setPlace,State.setPlayer,same]) (by rintro _ ⟨⟩) (by simp)
  | leave q selecting =>
    by_cases same : p = q
    · subst same
      simp only [Reads,Stops,jammed]
      simp [State.setPlace,State.setPlayer,selecting,Place.Returns]
    · exact other (by simp [State.setPlace,State.setPlayer,same]) (by rintro _ ⟨⟩) (by simp [Ne.symm same])
  | logout q handler idle leaving next =>
    by_cases same : p = q
    · subst same
      have free : ¬ Jammed s := by simp [Jammed,idle]
      simp [Reads,Stops,State.setPlace,State.setPlayer,State.setHandler,leaving,Place.Returns,free,Jams]
    · exact other (by simp [State.setHandler,State.setPlace,State.setPlayer,same]) (by rintro _ ⟨⟩) (by simp)
  | login handler idle next => exact other ⟨rfl,rfl⟩ (by rintro _ ⟨⟩) (by simp)
  | panic e panics => cases e with
    | stop party | closeCh party | closePlayer party | command q | logged => exact other ⟨rfl,rfl⟩ (by rintro _ ⟨⟩) (by simp)
    | connect q connected =>
      cases connected with
      | false =>
        refine other ⟨rfl,rfl⟩ (by rintro _ ⟨⟩) ⟨?_,by simp⟩
        rintro ⟨same,closes⟩
        cases same
        exact closes panics
      | true => exact panics.elim
    | _ => exact panics.elim
  | stop party q stopping current => exact other ⟨rfl,rfl⟩ (by rintro _ ⟨⟩) (by simp)
  | push party q stop pushing sent =>
    by_cases same : p = q
    · subst same
      exact other (by simp [State.setHandler,State.setPlayer]) (by rintro _ ⟨⟩) (by simp)
    · exact other (by simp [State.setHandler,State.setPlayer,same]) (by rintro _ ⟨⟩) (by simp)
  | closePlayer party q closing managed =>
    by_cases same : p = q
    · subst same
      exact other (by simp [State.setHandler,State.setPlayer]) (by rintro _ ⟨⟩) (by simp)
    · exact other (by simp [State.setHandler,State.setPlayer,same]) (by rintro _ ⟨⟩) (by simp)
  | unset party unsetting => exact other ⟨rfl,rfl⟩ (by rintro _ ⟨⟩) (by simp)
  | closeCh party c closing apiCh isOpen => exact other ⟨rfl,rfl⟩ (by rintro _ ⟨⟩) (by simp)
  | create party creating => exact other ⟨rfl,rfl⟩ (by rintro _ ⟨⟩) (by simp)
  | uncreated party creating => exact other ⟨rfl,rfl⟩ (by rintro _ ⟨⟩) (by simp)
  | make party q making => exact other ⟨rfl,rfl⟩ (by rintro _ ⟨⟩) (by simp)
  | assign party q assigning => exact other ⟨rfl,rfl⟩ (by rintro _ ⟨⟩) (by simp)
  | start party q handler starting next =>
    by_cases same : p = q
    · subst same
      have created := (inv.held party p (by simp [starting,Handler.Holds])).2
      simp [Reads,State.setPlayer,State.setHandler,created,Place.Returns,starting]
    · refine other (by simp [State.setHandler,State.setPlayer,same]) ?_ (by simp)
      rintro _ ⟨⟩ starts
      cases starting.symm.trans starts
      exact same rfl
  | logged logging q current => exact other ⟨rfl,rfl⟩ (by rintro _ ⟨⟩) (by simp)

theorem reads_party (moves : Moves s s' e) {c : Nat} (made : c < s.made) (party : Party) : Reads s' (.party party) c ↔
    Reads s (.party party) c ∧ ¬ Stops e s (.party party) ∧ e ≠ .start party := by
  cases moves with
  | logout p handler idle leaving next =>
    cases party <;> rcases next with rfl | rfl <;>
      simp [Reads,Stops,State.setHandler,State.setPlace,State.setPlayer,idle,Handler.Starts]
  | login handler idle next =>
    cases party <;> rcases next with rfl | rfl <;> simp [Reads,Stops,State.setHandler,idle,Handler.Starts]
  | panic e panics => cases e with
    | make other | start other => exact panics.elim
    | _ => simp [Reads,Stops,State.crash]
  | stop other q stopping current =>
    cases party <;> cases other <;> simp [Reads,Stops,State.setHandler,stopping,Handler.Starts]
  | push other q stop pushing sent =>
    cases party <;> cases other <;> simp [Reads,Stops,State.setHandler,State.setPlayer,pushing,Handler.Starts]
  | closePlayer other q closing managed =>
    cases party <;> cases other <;> simp [Reads,Stops,State.setHandler,State.setPlayer,closing,Handler.Starts]
  | unset other unsetting =>
    cases party <;> cases other <;> simp [Reads,Stops,State.setHandler,unsetting,Handler.Starts]
  | closeCh other ch closing apiCh isOpen =>
    cases party <;> cases other <;> simp [Reads,Stops,State.setHandler,closing,Handler.Starts]
  | create other creating =>
    cases party <;> cases other <;> simp [Reads,Stops,State.setHandler,creating,Handler.Starts]
  | uncreated other creating =>
    cases party <;> cases other <;> simp [Reads,Stops,State.setHandler,creating,Handler.Starts]
  | make other p making => simp [Reads,Stops,State.setHandler,Nat.ne_of_gt made]
  | assign other p assigning =>
    cases party <;> cases other <;> simp [Reads,Stops,State.setHandler,assigning,Handler.Starts]
  | start other p handler starting next =>
    cases party <;> cases other <;> rcases next with rfl | rfl <;>
      simp [Reads,Stops,State.setHandler,State.setPlayer,starting,Handler.Starts]
  | logged logging q current =>
    cases party <;> simp [Reads,Stops,State.setHandler,logging,Handler.Starts]
  | _ => simp [Reads,Stops,State.reply,State.crash,State.setPlace,State.setPlayer]

/-- Somebody reads the channel after a step if somebody did before and does not stop. -/
theorem reads_step (inv : Inv s) (moves : Moves s s' e) {c : Nat} (made : c < s.made) :
    (∃ reader, Reads s' reader c) ↔ ∃ reader, Reads s reader c ∧ ¬ Stops e s reader := by
  constructor
  · rintro ⟨p | party,reads⟩
    · rcases (reads_player inv moves p c).mp reads with still | ⟨party,rfl,starting,apiCh⟩
      · exact ⟨.player p,still⟩
      · exact ⟨.party party,⟨apiCh,by simp [starting,Handler.Starts]⟩,nofun⟩
    · obtain ⟨reads,goesOn,_⟩ := (reads_party moves made party).mp reads
      exact ⟨.party party,reads,goesOn⟩
  · rintro ⟨p | party,reads,goesOn⟩
    · exact ⟨.player p,(reads_player inv moves p c).mpr (.inl ⟨reads,goesOn⟩)⟩
    · by_cases starts : e = .start party
      · subst starts
        -- the player that the handler starts reads the channel from now on
        cases moves with
        | start _ p handler starting next =>
          exact ⟨.player p,(reads_player inv (.start party p handler starting next) p c).mpr (.inr ⟨party,rfl,starting,reads.1⟩)⟩
        | panic _ panics => exact panics.elim
      · exact ⟨.party party,(reads_party moves made party).mpr ⟨reads,goesOn,starts⟩⟩

/-! ### The place of a request -/

/-- A player has the requests that it takes from the forwarder until it replies. -/
theorem player_step (inv : Inv s) (moves : Moves s s' e) (p r : Nat) : At s' (.player p) r ↔
    At s (.player p) r ∧ e ≠ .reply p ∨ e = .forward p ∧ At s .forwarder r := by
  simp only [At]
  cases moves with
  | unconnected q player connecting closed =>
    obtain ⟨_,_,place⟩ := closeSelf_spec (inv.tokens q) closed
    grind
  | start party q handler starting next =>
    have created := (inv.held party q (by simp [starting,Handler.Holds])).2
    grind
  | panic e panics => cases e with
    | reply q => exact panics.elim
    | forward q => exact panics.elim
    | _ => simp [State.crash]
  | _ => grind

/-- The forwarder and the answers, in the steps that are about them and in the others. -/
theorem taken_step (moves : Moves s s' e) :
    e = .request ∧ s.forwarder = .idle ∧ s'.forwarder = .checking s.requests ∧ s'.requests = s.requests + 1 ∧ s'.answers = s.answers ∨
    s'.requests = s.requests ∧
      ((∃ r, e = .check ∧ At s .forwarder r ∧ s'.forwarder = .idle ∧ s'.answers = s.answers ++ [(r,.errNoSession)]) ∨
      (∃ p r, e = .forward p ∧ At s .forwarder r ∧ s'.forwarder = .idle ∧ s'.answers = s.answers) ∨
      (∃ p r, e = .reply p ∧ (s.players p).place = .handling r ∧ s'.forwarder = s.forwarder ∧
        s'.answers = s.answers ++ [(r,.player p)]) ∨
      (∀ p, e ≠ .forward p ∧ e ≠ .reply p) ∧ s'.answers = s.answers ∧ ∀ r, At s' .forwarder r ↔ At s .forwarder r) := by
  cases moves with
  | request idle => exact .inl ⟨rfl,idle,rfl,rfl,rfl⟩
  | refuse r checking nobody => exact .inr ⟨rfl,.inl ⟨r,rfl,.inl checking,rfl,rfl⟩⟩
  | check r checking => exact .inr ⟨rfl,.inr (.inr (.inr ⟨fun _ => ⟨nofun,nofun⟩,rfl,by simp [At,checking]⟩))⟩
  | readCh r reading => exact .inr ⟨rfl,.inr (.inr (.inr ⟨fun _ => ⟨nofun,nofun⟩,rfl,by simp [At,reading]⟩))⟩
  | forward p r c sending isOpen selecting apiRecv =>
    exact .inr ⟨rfl,.inr (.inl ⟨p,r,rfl,.inr (.inr ⟨_,sending⟩),rfl,rfl⟩)⟩
  | reply p r handling => exact .inr ⟨rfl,.inr (.inr (.inl ⟨p,r,rfl,handling,rfl,rfl⟩))⟩
  | panic e panics => cases e with
    | forward p => exact panics.elim
    | reply p => exact panics.elim
    | _ => exact .inr ⟨rfl,.inr (.inr (.inr ⟨fun _ => ⟨nofun,nofun⟩,rfl,fun _ => Iff.rfl⟩))⟩
  | _ => exact .inr ⟨rfl,.inr (.inr (.inr ⟨fun _ => ⟨nofun,nofun⟩,rfl,fun _ => Iff.rfl⟩))⟩

theorem forwarder_alone {r other : Nat} (first : At s .forwarder r) (second : At s .forwarder other) : r = other := by
  simp only [At] at first second
  grind

theorem player_alone {p r other : Nat} (first : At s (.player p) r) (second : At s (.player p) other) : r = other := by
  simp only [At] at first second
  grind

/-- A request goes from one place to another. -/
theorem accounted_moved {r : Nat} {source : Spot} (target : Spot) (accounted : Accounted s) (here : At s source r)
    (requests : s'.requests = s.requests) (once : (s'.answers.map Prod.fst).Nodup)
    (others : ∀ spot q, q ≠ r → (At s' spot q ↔ At s spot q)) (moved : ∀ spot, At s' spot r ↔ spot = target) : Accounted s' := by
  refine ⟨once,?_,?_⟩
  · intro q
    rw [requests,accounted.somewhere q]
    by_cases same : q = r
    · subst same
      exact ⟨fun _ => ⟨target,(moved target).mpr rfl⟩,fun _ => ⟨source,here⟩⟩
    · exact exists_congr fun spot => (others spot q same).symm
  · intro q spot other first second
    by_cases same : q = r
    · subst same
      exact ((moved spot).mp first).trans ((moved other).mp second).symm
    · exact accounted.alone q spot other ((others spot q same).mp first) ((others other q same).mp second)

theorem answered_once {r : Nat} {source : Spot} (answer : Answer) (accounted : Accounted s) (here : At s source r)
    (other : source ≠ .answered) :
    ((s.answers ++ [(r,answer)]).map Prod.fst).Nodup := by
  have fresh : r ∉ s.answers.map Prod.fst := fun answered => other (accounted.alone r source .answered here answered)
  rw [List.map_append,List.map_singleton]
  exact List.Nodup.append accounted.once (List.nodup_singleton r) (List.disjoint_singleton.mpr fresh)

/-! ### Losing a request -/

theorem closed_step (moves : Moves s s' e) (c : Nat) :
    c ∈ s'.closed ↔ c ∈ s.closed ∨ ∃ party, e = .closeCh party ∧ s.apiCh = some c := by
  cases moves with
  | panic e panics => cases e with
    | closeCh party =>
      simp only [State.crash]
      exact ⟨.inl,fun closed => closed.elim id fun ⟨_,_,apiCh⟩ => panics c apiCh⟩
    | _ => simp [State.crash]
  | closeCh party ch closing apiCh isOpen => simp [State.setHandler,apiCh,or_comm,eq_comm]
  | _ => simp [State.reply,State.crash,State.setHandler,State.setPlace,State.setPlayer]

/-- A send goes on until a player takes the request. -/
theorem sending_step (moves : Moves s s' e) {r : Nat} {ch : Option Nat} (sending : s.forwarder = .sending r ch) :
    s'.forwarder = .sending r ch ∨ Served s ch ∧ ∃ p, e = .forward p := by
  cases moves with
  | forward p r' c sent isOpen selecting apiRecv =>
    cases sending.symm.trans sent
    exact .inr ⟨⟨c,rfl,isOpen,.player p,apiRecv,by simp [selecting,Place.Returns]⟩,p,rfl⟩
  | request idle => cases sending.symm.trans idle
  | refuse r checking nobody => cases sending.symm.trans checking
  | check r checking => cases sending.symm.trans checking
  | readCh r reading => cases sending.symm.trans reading
  | _ => exact .inl sending

theorem sending_before (moves : Moves s s' e) {r : Nat} {ch : Option Nat} (sending : s'.forwarder = .sending r ch) :
    s.forwarder = .sending r ch ∨ e = .readCh ∧ ch = s.apiCh ∧ (Served s' ch ↔ Served s ch) := by
  cases moves with
  | readCh r' reading =>
    cases sending
    exact .inr ⟨rfl,rfl,Iff.rfl⟩
  | request idle => cases sending
  | refuse r checking nobody => cases sending
  | check r checking => cases sending
  | forward p r c sent isOpen selecting apiRecv => cases sending
  | _ => exact .inl sending

theorem panics_step (moves : Moves s s' e) (panics : Panics s e) : s' = s.crash := by
  cases moves with
  | panic e _ => rfl
  | stop party q stopping current => cases panics.symm.trans current
  | closeCh party c closing apiCh isOpen => exact absurd (panics c apiCh) isOpen
  | closePlayer party q closing managed =>
    obtain ⟨q',closing',ended⟩ := panics
    cases closing.symm.trans closing'
    cases managed.symm.trans ended
  | command p managed => cases managed.symm.trans panics
  | unconnected p player connecting closed => cases closed.symm.trans panics
  | logged logging q current => cases panics.symm.trans current
  | _ => exact panics.elim

theorem crash_step (alive : s.crashed = false) (moves : Moves s s' e) (crashed : s'.crashed = true) :
    s' = s.crash ∧ (SendsClosed s ∨ Panics s e) := by
  cases moves with
  | panic e panics => exact ⟨rfl,.inr panics⟩
  | sendClosed r c sending closed => exact ⟨rfl,.inl ⟨r,c,sending,closed⟩⟩
  | _ => cases alive.symm.trans crashed

theorem sendsClosed_lost (sends : SendsClosed s) : Lost s := by
  obtain ⟨r,c,sending,closed⟩ := sends
  refine .inl ⟨r,some c,sending,?_⟩
  rintro ⟨_,⟨⟩,isOpen,_⟩
  exact isOpen closed

/-- A step that keeps the condition loses no request. -/
theorem kept_step (inv : Inv s) (alive : s.crashed = false) (kept : ¬ Lost s) (attended : Attended e s) (moves : Moves s s' e) :
    ¬ Lost s' := by
  rintro (⟨r,ch,sending,unserved⟩ | ⟨crashed,pending⟩)
  · rcases sending_before moves sending with before | ⟨rfl,rfl,same⟩
    · have served : Served s ch := by
        by_contra lost
        exact kept (.inl ⟨r,ch,before,lost⟩)
      obtain ⟨c,rfl,isOpen,_⟩ := served
      refine unserved ⟨c,rfl,?_,(reads_step inv moves (inv.sending r c before)).mpr (attended.read r c before)⟩
      intro closed
      rcases (closed_step moves c).mp closed with already | ⟨party,closes,apiCh⟩
      · exact isOpen already
      · exact attended.unclosed r c party before closes apiCh
    · exact unserved (same.mpr (attended.readCh rfl))
  · obtain ⟨rfl,sends | panics⟩ := crash_step alive moves crashed
    · exact kept (sendsClosed_lost sends)
    · exact attended.calm panics pending

/-- A step that breaks the condition loses one. -/
theorem lost_step (inv : Inv s) (moves : Moves s s' e) (broken : ¬ Attended e s) : Lost s' := by
  by_contra kept
  have calm : Panics s e → ¬ Pending s := by
    intro panics pending
    rw [panics_step moves panics] at kept
    exact kept (.inr ⟨rfl,pending⟩)
  have sends {r c : Nat} (sending : s.forwarder = .sending r (some c)) (notTaken : ∀ p, e ≠ .forward p) : Served s' (some c) := by
    by_contra unserved
    rcases sending_step moves sending with still | ⟨_,p,taken⟩
    · exact kept (.inl ⟨r,some c,still,unserved⟩)
    · exact notTaken p taken
  refine broken ⟨calm,?_,?_,?_⟩
  · rintro rfl
    by_contra unserved
    cases moves with
    | readCh r reading => exact kept (.inl ⟨r,s.apiCh,rfl,unserved⟩)
    | panic _ panics => exact panics
  · rintro r c party sending rfl apiCh
    obtain ⟨_,⟨⟩,isOpen,_⟩ := sends sending nofun
    exact isOpen ((closed_step moves c).mpr (.inr ⟨party,rfl,apiCh⟩))
  · intro r c sending
    by_cases taken : ∃ p, e = .forward p
    · obtain ⟨p,rfl⟩ := taken
      cases moves with
      | forward _ r' c' sent isOpen selecting apiRecv =>
        cases sending.symm.trans sent
        exact ⟨.player p,⟨apiRecv,by simp [selecting,Place.Returns]⟩,by simp [Stops,selecting]⟩
      | panic _ panics => exact panics.elim
    · obtain ⟨_,⟨⟩,_,reads⟩ := sends sending fun p same => taken ⟨p,same⟩
      exact (reads_step inv moves (inv.sending r c sending)).mp reads

/-- A request that is lost stays so. -/
theorem lost_stays (inv : Inv s) (alive : s.crashed = false) (moves : Moves s s' e) (lost : Lost s) : Lost s' := by
  rcases lost with ⟨r,ch,sending,unserved⟩ | ⟨crashed,_⟩
  · rcases sending_step moves sending with still | ⟨served,_⟩
    · refine .inl ⟨r,ch,still,?_⟩
      rintro ⟨c,rfl,isOpen,reads⟩
      obtain ⟨reader,reads,_⟩ := (reads_step inv moves (inv.sending r c sending)).mp reads
      exact unserved ⟨c,rfl,fun closed => isOpen ((closed_step moves c).mpr (.inl closed)),reader,reads⟩
    · exact absurd served unserved
  · cases alive.symm.trans crashed

theorem accounted_request (accounted : Accounted s) (requests : s'.requests = s.requests + 1) (answers : s'.answers = s.answers)
    (taken : ∀ spot q, At s' spot q ↔ At s spot q ∨ spot = .forwarder ∧ q = s.requests) : Accounted s' := by
  have fresh (spot : Spot) : ¬ At s spot s.requests := fun here => Nat.lt_irrefl _ ((accounted.somewhere _).mpr ⟨spot,here⟩)
  refine ⟨by rw [answers]; exact accounted.once,?_,?_⟩
  · intro q
    rw [requests,Nat.lt_succ_iff_lt_or_eq,accounted.somewhere q]
    constructor
    · rintro (⟨spot,here⟩ | new)
      · exact ⟨spot,(taken spot q).mpr (.inl here)⟩
      · exact ⟨.forwarder,(taken _ q).mpr (.inr ⟨rfl,new⟩)⟩
    · rintro ⟨spot,here⟩
      exact ((taken spot q).mp here).imp (fun here => ⟨spot,here⟩) And.right
  · intro q spot other first second
    rcases (taken spot q).mp first with first | ⟨rfl,new⟩ <;> rcases (taken other q).mp second with second | ⟨rfl,new'⟩
    · exact accounted.alone q spot other first second
    · exact absurd (new' ▸ first) (fresh spot)
    · exact absurd (new ▸ second) (fresh other)
    · rfl

theorem accounted_step (inv : Inv s) (accounted : Accounted s) (moves : Moves s s' e) : Accounted s' := by
  have players := player_step inv moves
  rcases taken_step moves with ⟨rfl,idle,checking,requests,answers⟩ | ⟨requests,⟨r,rfl,here,idle,answers⟩ |
    ⟨p,r,rfl,here,idle,answers⟩ | ⟨p,r,rfl,handling,forwarder,answers⟩ | ⟨other,answers,forwarder⟩⟩
  -- a request comes in
  · refine accounted_request accounted requests answers ?_
    rintro (_ | _ | p) q
    · simp [At,answers]
    · simp [At,idle,checking,eq_comm]
    · simpa using players p q
  -- the forwarder answers it
  · have once := answered_once .errNoSession accounted here nofun
    refine accounted_moved .answered accounted here requests (by rw [answers]; exact once) ?_ ?_
    · rintro (_ | _ | p) q apart
      · simp [At,answers,apart]
      · simp only [At,idle]
        exact ⟨by simp,fun there => absurd (forwarder_alone there here) apart⟩
      · simpa using players p q
    · rintro (_ | _ | p)
      · simp [At,answers]
      · simp [At,idle]
      · refine ⟨fun there => ?_,nofun⟩
        have before : At s (.player p) r := by simpa using (players p r).mp there
        cases accounted.alone r _ _ before here
  -- a player takes it
  · refine accounted_moved (.player p) accounted here requests (by rw [answers]; exact accounted.once) ?_ ?_
    · rintro (_ | _ | p') q apart
      · simp [At,answers]
      · simp only [At,idle]
        exact ⟨by simp,fun there => absurd (forwarder_alone there here) apart⟩
      · rw [players p' q]
        have elsewhere : ¬ At s .forwarder q := fun there => apart (forwarder_alone there here)
        simp [elsewhere]
    · rintro (_ | _ | p')
      · refine ⟨fun there => ?_,nofun⟩
        rw [At,answers] at there
        cases accounted.alone r .answered _ there here
      · simp [At,idle]
      · rw [players p' r]
        have elsewhere : ¬ At s (.player p') r := fun there => by cases accounted.alone r _ _ there here
        simp [elsewhere,here,eq_comm]
  -- the player answers it
  · have here : At s (.player p) r := handling
    have once := answered_once (.player p) accounted here nofun
    refine accounted_moved .answered accounted here requests (by rw [answers]; exact once) ?_ ?_
    · rintro (_ | _ | p') q apart
      · simp [At,answers,apart]
      · simp [At,forwarder]
      · rw [players p' q]
        have elsewhere : At s (.player p') q → p ≠ p' := by
          rintro there rfl
          exact apart (player_alone there here)
        simpa using elsewhere
    · rintro (_ | _ | p')
      · simp [At,answers]
      · refine ⟨fun there => ?_,nofun⟩
        rw [At,forwarder] at there
        cases accounted.alone r .forwarder _ there here
      · refine ⟨fun there => ?_,nofun⟩
        obtain ⟨before,apart⟩ : At s (.player p') r ∧ p ≠ p' := by simpa using (players p' r).mp there
        cases accounted.alone r _ _ before here
        exact absurd rfl apart
  -- no request moves
  · have same (spot : Spot) (q : Nat) : At s' spot q ↔ At s spot q := by
      rcases spot with _ | _ | p
      · simp [At,answers]
      · exact forwarder q
      · rw [players p q]
        have apart := other p
        simp [apart]
    refine ⟨by rw [answers]; exact accounted.once,fun q => ?_,fun q spot other first second => ?_⟩
    · rw [requests,accounted.somewhere q]
      exact exists_congr fun spot => (same spot q).symm
    · exact accounted.alone q spot other ((same spot q).mp first) ((same other q).mp second)

theorem accounted_start (first : Bool) : Accounted (start first) := by
  have nowhere (spot : Spot) (q : Nat) : ¬ At (start first) spot q := by
    cases first <;> rcases spot with _ | _ | p <;> simp only [At,start,Function.update_apply,newAppPlayer] <;> grind
  refine ⟨by cases first <;> exact List.nodup_nil,fun q => ?_,fun q spot _ here => absurd here (nowhere spot q)⟩
  constructor
  · intro below
    cases first <;> exact absurd below (Nat.not_lt_zero q)
  · rintro ⟨spot,here⟩
    exact absurd here (nowhere spot q)

/-! ### Runs -/

theorem pending_at (pending : Pending s) : ∃ spot r, spot ≠ .answered ∧ At s spot r := by
  rcases pending with busy | ⟨p,r,here⟩
  · cases forwarder : s.forwarder with
    | idle => exact absurd forwarder busy
    | checking r => exact ⟨.forwarder,r,nofun,.inl forwarder⟩
    | reading r => exact ⟨.forwarder,r,nofun,.inr (.inl forwarder)⟩
    | sending r ch => exact ⟨.forwarder,r,nofun,.inr (.inr ⟨ch,forwarder⟩)⟩
  · exact ⟨.player p,r,nofun,here⟩

theorem lost_pending (lost : Lost s) : Pending s := by
  rcases lost with ⟨r,ch,sending,_⟩ | ⟨_,pending⟩
  · exact .inl (by simp [sending])
  · exact pending

/-- A request that is under way has not been answered. -/
theorem pending_unanswered (accounted : Accounted s) (pending : Pending s) : ¬ Answered s := by
  intro answered
  obtain ⟨spot,r,other,here⟩ := pending_at pending
  have once := answered r ((accounted.somewhere r).mpr ⟨spot,here⟩)
  have member : r ∈ s.answers.map Prod.fst := List.count_pos_iff.mp (by omega)
  exact other (accounted.alone r spot .answered here member)

theorem answered_of_idle (accounted : Accounted s) (idle : ¬ Pending s) : Answered s := by
  intro r taken
  obtain ⟨_ | _ | p,here⟩ := (accounted.somewhere r).mp taken
  · exact List.count_eq_one_of_mem accounted.once here
  · refine absurd (.inl ?_) idle
    rcases here with here | here | ⟨_,here⟩ <;> simp [here]
  · exact absurd (.inr ⟨p,r,here⟩) idle

/-- When the goroutines are at rest, a player that has a token and does not take it is away. -/
theorem rest_away (inv : Inv s) (alive : s.crashed = false) (rest : AtRest s) {q : Nat} (full : (s.players q).stop.Full)
    (posted : ∃ party, s.handlers party = .pushing q) : (s.players q).place.Away := by
  cases place : (s.players q).place with
  | created =>
    obtain ⟨party,starting⟩ := inv.posted q (.inr posted) place
    obtain ⟨halt,halted⟩ := rest (.start party) id
    simp [step,alive,handlerStep,starting] at halted
  | connecting =>
    obtain ⟨halt,halted⟩ := rest (.connect q true) id
    simp [step,alive,playerStep,only,place] at halted
  | selecting =>
    obtain ⟨halt,halted⟩ := rest (.stopped q) id
    cases buffer : (s.players q).stop.buffer with
    | nil => simp [Chan.Full,(inv.tokens q).cap,buffer] at full
    | cons token more => simp [step,alive,playerStep,only,place,Chan.receive,buffer,bind,Except.bind,pure,Except.pure] at halted
  | handling r =>
    obtain ⟨halt,halted⟩ := rest (.reply q) id
    simp [step,alive,playerStep,place] at halted
  | leaving => trivial
  | hung => trivial
  | ended => trivial

/-- When they are at rest and a player waits for the logout loop, the loop is jammed. -/
theorem rest_jammed (inv : Inv s) (alive : s.crashed = false) (rest : AtRest s) {p : Nat} (leaving : (s.players p).place = .leaving) :
    Jammed s := by
  cases handler : s.handlers .logout with
  | idle =>
    obtain ⟨halt,halted⟩ := rest (.logout p) id
    simp [step,alive,handlerStep,only,handler,leaving] at halted
  | stopping =>
    obtain ⟨halt,halted⟩ := rest (.stop .logout) id
    cases current : s.currentPlayer <;> simp [step,alive,handlerStep,only,handler,current] at halted
  | pushing q =>
    by_cases full : (s.players q).stop.Full
    · have away := rest_away inv alive rest full ⟨.logout,handler⟩
      simp [Jammed,handler,full,away]
    · obtain ⟨halt,halted⟩ := rest (.push .logout) id
      simp [step,alive,handlerStep,handler,Chan.send,(inv.tokens q).isOpen,full,bind,Except.bind,pure,Except.pure] at halted
  | closingPlayer q =>
    obtain ⟨halt,halted⟩ := rest (.closePlayer .logout) id
    cases managed : (s.players q).managed <;> simp [step,alive,handlerStep,handler,managed] at halted
  | unsetting =>
    obtain ⟨halt,halted⟩ := rest (.unset .logout) id
    simp [step,alive,handlerStep,only,handler] at halted
  | closing =>
    obtain ⟨halt,halted⟩ := rest (.closeCh .logout) id
    simp only [step,alive,handlerStep,only,handler] at halted
    cases apiCh : s.apiCh with
    | none => simp [apiCh] at halted
    | some c => by_cases closed : c ∈ s.closed <;> simp [apiCh,closed] at halted
  | creating =>
    obtain ⟨halt,halted⟩ := rest (.create .logout false) id
    simp [step,alive,handlerStep,only,handler] at halted
  | making q =>
    obtain ⟨halt,halted⟩ := rest (.make .logout) id
    simp [step,alive,handlerStep,handler] at halted
  | assigning q =>
    obtain ⟨halt,halted⟩ := rest (.assign .logout) id
    simp [step,alive,handlerStep,handler] at halted
  | starting q =>
    obtain ⟨halt,halted⟩ := rest (.start .logout) id
    simp [step,alive,handlerStep,handler] at halted
  | logging =>
    obtain ⟨halt,halted⟩ := rest .logged id
    cases current : s.currentPlayer <;> simp [step,alive,handlerStep,only,handler,current] at halted

/-- A request that is not lost is not left over when the goroutines are at rest. -/
theorem rest_idle (inv : Inv s) (kept : ¬ Lost s) (rest : AtRest s) : ¬ Pending s := by
  intro pending
  have alive : s.crashed = false := by
    by_contra crashed
    exact kept (.inr ⟨by simpa using crashed,pending⟩)
  have unhandled (p r : Nat) : (s.players p).place ≠ .handling r := by
    intro place
    obtain ⟨halt,halted⟩ := rest (.reply p) id
    simp [step,alive,playerStep,place] at halted
  rcases pending with busy | ⟨p,r,handling⟩
  · cases forwarder : s.forwarder with
    | idle => exact busy forwarder
    | checking r =>
      obtain ⟨halt,halted⟩ := rest .check id
      cases current : s.currentPlayer <;> simp [step,alive,forwarderStep,forwarder,current] at halted
    | reading r =>
      obtain ⟨halt,halted⟩ := rest .readCh id
      simp [step,alive,forwarderStep,forwarder] at halted
    | sending r ch =>
      have served : Served s ch := by
        by_contra unserved
        exact kept (.inl ⟨r,ch,forwarder,unserved⟩)
      obtain ⟨c,rfl,isOpen,p | party,reads,returns⟩ := served
      · cases place : (s.players p).place with
        | connecting =>
          obtain ⟨halt,halted⟩ := rest (.connect p true) id
          simp [step,alive,playerStep,only,place] at halted
        | selecting =>
          obtain ⟨halt,halted⟩ := rest (.forward p) id
          simp [step,alive,forwarderStep,forwarder,only,isOpen,place,reads] at halted
        | handling r => exact unhandled p r place
        | leaving =>
          rw [place] at returns
          exact returns (rest_jammed inv alive rest place)
        | _ =>
          rw [place] at returns
          exact returns
      · cases handler : s.handlers party with
        | assigning q =>
          obtain ⟨halt,halted⟩ := rest (.assign party) id
          simp [step,alive,handlerStep,handler] at halted
        | starting q =>
          obtain ⟨halt,halted⟩ := rest (.start party) id
          simp [step,alive,handlerStep,handler] at halted
        | _ =>
          rw [handler] at returns
          exact returns
  · exact unhandled p r handling

theorem accounted_run {events : List Event} {first : Bool} (reached : run step events (start first) = .ok s) : Inv s ∧ Accounted s := by
  refine run_invariant (I := fun s => Inv s ∧ Accounted s) ?_ ⟨inv_start first,accounted_start first⟩ reached
  intro e s s' ⟨inv,accounted⟩ taken
  obtain ⟨_,moves⟩ := step_moves taken
  exact ⟨inv_step inv moves,accounted_step inv accounted moves⟩

theorem lost_run {events : List Event} (inv : Inv s) (lost : Lost s) (reached : run step events s = .ok s') : Lost s' := by
  refine (run_invariant (I := fun s => Inv s ∧ Lost s) ?_ ⟨inv,lost⟩ reached).2
  intro e s s' ⟨inv,lost⟩ taken
  obtain ⟨alive,moves⟩ := step_moves taken
  exact ⟨inv_step inv moves,lost_stays inv alive moves lost⟩

theorem start_kept (first : Bool) : ¬ Lost (start first) := by
  intro lost
  obtain ⟨spot,r,_,here⟩ := pending_at (lost_pending lost)
  have below := ((accounted_start first).somewhere r).mpr ⟨spot,here⟩
  cases first <;> exact absurd below (Nat.not_lt_zero r)

theorem never_lost_iff {events : List Event} {first : Bool} (reached : run step events (start first) = .ok s) :
    Never step Lost events (start first) ↔ Guarded step Attended events (start first) := by
  refine never_iff_guarded (I := fun s => Inv s ∧ ¬ Lost s) ?_ (fun s inv => inv.2) ?_ ⟨inv_start first,start_kept first⟩ reached
  · intro e s s' ⟨inv,kept⟩ attended taken
    obtain ⟨alive,moves⟩ := step_moves taken
    exact ⟨inv_step inv moves,kept_step inv alive kept attended moves⟩
  · intro e s s' ⟨inv,_⟩ broken taken
    exact lost_step inv (step_moves taken).2 broken

/-- In every run, whether it starts with a player or without one, no request is answered twice and each one is
    in one place until it is answered. No request is lost exactly when every step meets the condition, and then,
    and only then, have all of them been answered once and without a send on a closed channel when the
    goroutines come to rest. -/
theorem requests_answered_once_iff {events : List Event} (first : Bool) {s : State} (reached : run step events (start first) = .ok s) :
    Accounted s ∧ (Never step Lost events (start first) ↔ Guarded step Attended events (start first)) ∧
      (AtRest s → (Never step SendsClosed events (start first) ∧ Answered s ↔ Guarded step Attended events (start first))) := by
  obtain ⟨inv,accounted⟩ := accounted_run reached
  refine ⟨accounted,never_lost_iff reached,?_⟩
  intro rest
  rw [← never_lost_iff reached]
  constructor
  · rintro ⟨_,answered⟩ before part s' before_reached lost
    obtain ⟨after,rfl⟩ := part
    rw [run_append,before_reached] at reached
    have still := lost_run (accounted_run before_reached).1 lost reached
    exact pending_unanswered accounted (lost_pending still) answered
  · intro never
    refine ⟨fun before part s' there sends => never before part s' there (sendsClosed_lost sends),?_⟩
    exact answered_of_idle accounted (rest_idle inv (never events (List.prefix_refl events) s reached) rest)

theorem attended_unsent (unsent : ∀ r ch, s.forwarder ≠ .sending r ch) (calm : ¬ Panics s e) (readCh : e ≠ .readCh) : Attended e s :=
  ⟨fun panics => absurd panics calm,fun same => absurd same readCh,
    fun r c _ sending => absurd sending (unsent r (some c)),fun r c sending => absurd sending (unsent r (some c))⟩

/-- The player answers a request and logs out, one comes in without a session, and the player of the next
    login answers another. -/
def served : List Event :=
  [.connect 0 true,.request,.check,.readCh,.forward 0,.reply 0,.leave 0,.logout 0,.stop .logout,.push .logout,.closePlayer .logout,
    .stopped 0,.unset .logout,.request,.check,.closeCh .logout,.create .logout false,.login,.create .serve true,.make .serve,
    .assign .serve,.start .serve,.connect 1 true,.request,.check,.readCh,.forward 1,.command 1,.reply 1]

/-- A player reads the channel that the forwarder comes to. -/
theorem attended_readCh {r c p : Nat} (reading : s.forwarder = .reading r) (apiCh : s.apiCh = some c) (isOpen : c ∉ s.closed)
    (apiRecv : (s.players p).apiRecv = some c) (selecting : (s.players p).place = .selecting) : Attended .readCh s := by
  refine ⟨False.elim,fun _ => ⟨c,apiCh,isOpen,.player p,apiRecv,by simp [selecting,Place.Returns]⟩,nofun,?_⟩
  intro r' c' sending
  cases reading.symm.trans sending

theorem attended_forward {r c p : Nat} (sending : s.forwarder = .sending r (some c)) (apiRecv : (s.players p).apiRecv = some c)
    (selecting : (s.players p).place = .selecting) : Attended (.forward p) s := by
  refine ⟨False.elim,nofun,nofun,?_⟩
  intro r' c' same
  cases sending.symm.trans same
  exact ⟨.player p,⟨apiRecv,by simp [selecting,Place.Returns]⟩,by simp [Stops,selecting]⟩

/-- Nobody has anything to do where the players that run wait in their select. -/
theorem atRest_waiting (forwarder : s.forwarder = .idle) (handlers : ∀ party, s.handlers party = .idle)
    (players : ∀ p, (s.players p).place = .created ∨ (s.players p).place = .ended ∨
      (s.players p).place = .selecting ∧ (s.players p).stop.receive = .error .waits ∧ ∀ c ∈ s.closed, (s.players p).apiRecv ≠ some c) :
    AtRest s := by
  intro e inside
  cases crashed : s.crashed with
  | true => exact ⟨_,by simp [step,crashed]; rfl⟩
  | false =>
    cases e with
    | request | login | leave p | unsent p | command p => exact absurd trivial inside
    | check | readCh | forward p | sendClosed => exact ⟨.elsewhere,by simp [step,crashed,forwarderStep,forwarder]⟩
    | connect p connected =>
      rcases players p with place | place | ⟨place,_⟩ <;> exact ⟨.elsewhere,by simp [step,crashed,playerStep,only,place]⟩
    | reply p =>
      rcases players p with place | place | ⟨place,_⟩ <;> exact ⟨.elsewhere,by simp [step,crashed,playerStep,place]⟩
    | stopped p =>
      rcases players p with place | place | ⟨place,waits,_⟩
      · exact ⟨.elsewhere,by simp [step,crashed,playerStep,only,place]⟩
      · exact ⟨.elsewhere,by simp [step,crashed,playerStep,only,place]⟩
      · exact ⟨.waits,by simp [step,crashed,playerStep,only,place,waits,bind,Except.bind]⟩
    | zero p =>
      rcases players p with place | place | ⟨_,_,isOpen⟩
      · exact ⟨.elsewhere,by simp [step,crashed,playerStep,only,place]⟩
      · exact ⟨.elsewhere,by simp [step,crashed,playerStep,only,place]⟩
      · refine ⟨.elsewhere,?_⟩
        have apart : ¬ ∃ c ∈ s.closed, (s.players p).apiRecv = some c := by
          rintro ⟨c,closed,same⟩
          exact isOpen c closed same
        simp only [step,crashed,playerStep,only,apart,and_false]
        rfl
    | logout p =>
      rcases players p with place | place | ⟨place,_⟩ <;> exact ⟨.elsewhere,by simp [step,crashed,handlerStep,only,place]⟩
    | _ => exact ⟨.elsewhere,by simp [step,crashed,handlerStep,only,handlers]⟩

theorem requests_answered_once_served : ∃ s, run step served (start true) = .ok s ∧ AtRest s ∧
    Guarded step Attended served (start true) ∧ Never step SendsClosed served (start true) ∧ Answered s ∧
    s.answers = [(0,.player 0),(1,.errNoSession),(2,.player 1)] := by
  have guarded : Guarded step Attended served (start true) := by
    have running {s : State} (handler : s.handlers .logout = .closingPlayer 0) (managed : (s.players 0).managed = true) :
        ¬ Panics s (.closePlayer .logout) := by
      rintro ⟨q,same,ended⟩
      cases handler.symm.trans same
      cases managed.symm.trans ended
    refine ⟨attended_unsent nofun id nofun,attended_unsent nofun id nofun,attended_unsent nofun id nofun,
      attended_readCh (p := 0) rfl rfl (by decide) rfl rfl,attended_forward rfl rfl rfl,attended_unsent nofun id nofun,
      attended_unsent nofun id nofun,attended_unsent nofun id nofun,attended_unsent nofun nofun nofun,attended_unsent nofun id nofun,
      attended_unsent nofun (running rfl rfl) nofun,attended_unsent nofun id nofun,attended_unsent nofun id nofun,attended_unsent nofun id nofun,
      attended_unsent nofun id nofun,attended_unsent nofun (fun closed => absurd (closed 0 rfl) (by decide)) nofun,?_⟩
    exact ⟨attended_unsent nofun id nofun,attended_unsent nofun id nofun,attended_unsent nofun id nofun,attended_unsent nofun id nofun,
      attended_unsent nofun id nofun,attended_unsent nofun id nofun,attended_unsent nofun id nofun,attended_unsent nofun id nofun,
      attended_unsent nofun id nofun,attended_readCh (p := 1) rfl rfl (by decide) rfl rfl,attended_forward rfl rfl rfl,
      attended_unsent nofun nofun nofun,attended_unsent nofun id nofun,trivial⟩
  have rest {s : State} (reached : run step served (start true) = .ok s) : AtRest s := by
    cases reached
    refine atRest_waiting rfl (fun party => by cases party <;> rfl) ?_
    intro p
    rcases p with _ | _ | p
    · exact .inr (.inl rfl)
    · exact .inr (.inr ⟨rfl,rfl,by decide⟩)
    · exact .inl rfl
  have kept {s : State} (reached : run step served (start true) = .ok s) : Never step SendsClosed served (start true) ∧ Answered s :=
    ((requests_answered_once_iff true reached).2.2 (rest reached)).mpr guarded
  exact ⟨_,rfl,rest rfl,guarded,(kept rfl).1,(kept rfl).2,rfl⟩

/-- A logout while the forwarder is about to send. -/
def switched : List Event :=
  [.connect 0 true,.request,.check,.readCh,.leave 0,.logout 0,.stop .logout,.push .logout,.closePlayer .logout,.unset .logout,
    .closeCh .logout]

/-- The forwarder sends on a channel that the logout loop has closed, the daemon ends and nobody answers the request. -/
theorem request_sent_on_closed : (∃ s, run step switched (start true) = .ok s ∧ SendsClosed s) ∧
    ∃ s, run step (switched ++ [.sendClosed]) (start true) = .ok s ∧ AtRest s ∧ ¬ Answered s := by
  refine ⟨⟨_,rfl,0,0,rfl,by decide⟩,⟨_,rfl,fun e _ => ⟨.panics "the daemon has ended",rfl⟩,fun answered => ?_⟩⟩
  cases answered 0 (by decide)

end Librespot.Forwarding
