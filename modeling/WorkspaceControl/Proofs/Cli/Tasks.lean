import WorkspaceControl.Cli.Task
import WorkspaceControl.Proofs.Rpc.Exchange

/-!
# Running tasks

A task is run at a desk and leaves another behind, with what it came to. One lemma for each way to
make a task says so; a proof about a command goes through its steps with them and unfolds no monad.
-/

namespace WorkspaceControl.Cli

open Rpc

namespace Task

variable {α β : Type}

theorem run_pure (a : α) (desk : Desk) : (pure a : Task α).run.run desk = (.ok a, desk) := rfl

theorem run_throw (fault : CommandFault) (desk : Desk) :
    (throw fault : Task α).run.run desk = (.error fault, desk) := rfl

/-- What follows a task runs where the task succeeds and leaves off. -/
theorem run_bind (task : Task α) (next : α → Task β) (desk : Desk) :
    (task >>= next).run.run desk =
      match task.run.run desk with
      | (.ok a, desk) => (next a).run.run desk
      | (.error fault, desk) => (.error fault, desk) := by
  simp only [bind, ExceptT.bind, ExceptT.mk, ExceptT.run, StateT.run, StateT.bind, ExceptT.bindCont]
  cases task desk with
  | mk result desk => cases result <;> rfl

theorem run_print (lines : List Line) (desk : Desk) :
    (print lines).run.run desk = (.ok (), { desk with printed := desk.printed ++ lines }) := rfl

theorem run_talk (exchange : StateM Network α) (desk : Desk) :
    (talk exchange).run.run desk =
      (.ok (exchange.run desk.network).1,
        { desk with network := (exchange.run desk.network).2 }) := rfl

theorem run_orElse {ε : Type} (fault : ε → CommandFault) (result : Except ε α) (desk : Desk) :
    (orElse fault result).run.run desk = (result.mapError fault, desk) := by
  cases result <;> rfl

/-- An exchange that has to succeed ends the task where it does not. -/
theorem run_talk_orElse {ε : Type} (exchange : StateM Network (Except ε α))
    (fault : ε → CommandFault) (next : α → Task β) (desk : Desk) :
    (talk exchange >>= fun answered => orElse fault answered >>= next).run.run desk =
      match exchange.run desk.network with
      | (.ok a, network) => (next a).run.run { desk with network }
      | (.error e, network) => (.error (fault e), { desk with network }) := by
  rw [run_bind, run_talk]
  simp only [run_bind]
  cases hexchange : exchange.run desk.network with
  | mk result network => cases result <;> rfl

end Task

/-- What becomes of a desk by calls that are made at it, and nothing else. -/
def Desk.after (desk : Desk) (client : Client) (calls : List Call) : Desk :=
  { desk with network := desk.network.after client calls }

namespace Desk

variable (desk : Desk) (client : Client)

@[simp] theorem network_after (calls : List Call) :
    (desk.after client calls).network = desk.network.after client calls := rfl

@[simp] theorem printed_after (calls : List Call) :
    (desk.after client calls).printed = desk.printed := rfl

@[simp] theorem after_nil : desk.after client [] = desk := by simp [after]

theorem after_after (calls more : List Call) :
    (desk.after client calls).after client more = desk.after client (calls ++ more) := by
  simp [after, Network.after_after]

variable {desk client}

theorem after_of_refused {call : Call} (h : ¬desk.network.transport.Takes client call) :
    desk.after client [call] = desk := by
  rw [after, Network.after_of_refused h]

end Desk

/-- Which workspace is meant is found out by one call, and nothing is printed meanwhile. -/
theorem Context.run_resolve (c : Context) (desk : Desk) :
    c.resolve.run.run desk =
      (((c.client.lists desk.network).mapError .listing >>= fun workspaces =>
          (Cli.resolve c.surroundings c.settings.workspace workspaces).mapError .resolution),
        desk.after c.client [.service .describeWorkspaces]) := by
  have hrun := Task.run_talk_orElse (c.client.perform (.service .describeWorkspaces))
    CommandFault.listing
    (fun workspaces =>
      Task.orElse .resolution (Cli.resolve c.surroundings c.settings.workspace workspaces))
    desk
  rw [Client.perform_run] at hrun
  refine hrun.trans ?_
  unfold Client.lists
  cases (Call.service .describeWorkspaces).hear
    (c.client.hears desk.network (.service .describeWorkspaces)) with
  | error failure => rfl
  | ok workspaces => exact Task.run_orElse _ _ _

/-- The workspace that is meant was found, after the call for it and nothing else. -/
structure Context.Finds (c : Context) (desk : Desk) (id : String) : Prop where
  run : c.resolve.run.run desk = (.ok id, desk.after c.client [.service .describeWorkspaces])
  /-- The call has taken an answer, since the workspaces were listed. -/
  takes : desk.network.transport.Takes c.client (.service .describeWorkspaces)

theorem Context.finds_of_ok {c : Context} {desk : Desk} {id : String}
    (h : (c.resolve.run.run desk).1 = .ok id) : c.Finds desk id := by
  rw [run_resolve] at h
  refine ⟨by rw [run_resolve]; exact Prod.ext h rfl, ?_⟩
  cases hlists : c.client.lists desk.network with
  | error failure =>
      rw [hlists] at h
      cases h
  | ok workspaces => exact Client.takes_of_hear hlists

end WorkspaceControl.Cli
