import ReversePolish.CommandLine
import ReversePolish.Main
import ReversePolish.Proofs.Acceptance
import ReversePolish.Proofs.Agreement
import ReversePolish.Proofs.Answers
import ReversePolish.Proofs.Calls
import ReversePolish.Proofs.Canonical
import ReversePolish.Proofs.Chains
import ReversePolish.Proofs.Conservation
import ReversePolish.Proofs.Constants
import ReversePolish.Proofs.Continuing
import ReversePolish.Proofs.Descriptions
import ReversePolish.Proofs.Evaluation
import ReversePolish.Proofs.Expansions
import ReversePolish.Proofs.Faults
import ReversePolish.Proofs.Grouping
import ReversePolish.Proofs.Groups
import ReversePolish.Proofs.Interleaving
import ReversePolish.Proofs.Joining
import ReversePolish.Proofs.Literals
import ReversePolish.Proofs.Options
import ReversePolish.Proofs.Outcome
import ReversePolish.Proofs.Pieces
import ReversePolish.Proofs.Precedences
import ReversePolish.Proofs.Ranks
import ReversePolish.Proofs.Refusals
import ReversePolish.Proofs.Sessions
import ReversePolish.Proofs.Signs
import ReversePolish.Proofs.Spelling
import ReversePolish.Proofs.Tables
import ReversePolish.Proofs.Trailing
import ReversePolish.Proofs.Verdicts
import ReversePolish.Proofs.Waiting
import ReversePolish.Session
