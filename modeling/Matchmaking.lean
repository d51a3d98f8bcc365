import Matchmaking.Agency.Request
import Matchmaking.Document
import Matchmaking.Proofs.Numbering
import Matchmaking.Proofs.Transactions
import Matchmaking.Proofs.Writes
import Matchmaking.Proofs.Contention
import Matchmaking.Proofs.Courtship
import Matchmaking.Proofs.Atomicity
import Matchmaking.Proofs.Links
import Matchmaking.Proofs.Upkeep
import Matchmaking.Proofs.Progress
import Matchmaking.Proofs.Linkage
import Matchmaking.Proofs.Couples
import Matchmaking.Proofs.Backing
import Matchmaking.Proofs.Desk
import Matchmaking.Proofs.Strokes
import Matchmaking.Proofs.Integrity
import Matchmaking.Proofs.Trails
import Matchmaking.Proofs.Genders
import Matchmaking.Proofs.Pass
import Matchmaking.Proofs.Leases
import Matchmaking.Proofs.Json.Strings
import Matchmaking.Proofs.Json.Tokens
import Matchmaking.Proofs.Json.Values
import Matchmaking.Proofs.Json.Documents
import Matchmaking.Proofs.Entry
import Matchmaking.Proofs.Advice
import Matchmaking.Proofs.Writers
import Matchmaking.Proofs.Columns
import Matchmaking.Proofs.Shortlists
import Matchmaking.Proofs.Deeds
import Matchmaking.Proofs.Commuting
import Matchmaking.Proofs.Arranging
import Matchmaking.Proofs.Advancing
import Matchmaking.Proofs.Undoing
import Matchmaking.Proofs.Advising
import Matchmaking.Proofs.Selection
import Matchmaking.Proofs.Symmetry
import Matchmaking.Proofs.Rounding
import Matchmaking.Proofs.Scores
import Matchmaking.Proofs.Overflow
import Matchmaking.Proofs.Masking
import Matchmaking.Proofs.Reasons
import Matchmaking.Proofs.Numerals
import Matchmaking.Proofs.Ages
import Matchmaking.Proofs.Intake
import Matchmaking.Proofs.Resubmitting
import Matchmaking.Proofs.Incomes
