import Parley.Main
import Parley.Player
import Parley.Proofs.Session.Consistency
import Parley.Proofs.Session.Restart
import Parley.Proofs.Session.Screen
import Parley.Proofs.Session.Skipping
import Parley.Proofs.Session.Tempo
import Parley.Proofs.Session.Ticking
import Parley.Proofs.Session.Visit
import Parley.Proofs.Session.Answer
import Parley.Proofs.Graph.Reachable
import Parley.Proofs.Graph.Chain
import Parley.Proofs.Graph.Path
import Parley.Proofs.Session.Choosing
import Parley.Proofs.Session.Tour
import Parley.Proofs.Session.Voyage
import Parley.Proofs.Session.Ledger
import Parley.Proofs.Session.Music
import Parley.Proofs.Number.Digits
import Parley.Proofs.Number.Shortest
import Parley.Proofs.Ron.Lexeme
import Parley.Proofs.Document.Codec
import Parley.Proofs.Document.Record
import Parley.Proofs.Document.Graph
import Parley.Proofs.Graph.Lookahead
import Parley.Proofs.Session.Pause
import Parley.Proofs.Markup.Typing
import Parley.Proofs.Markup.Reel
import Parley.Proofs.Markup.Styling
import Parley.Proofs.Markup.Wrapping
import Parley.Proofs.Session.Appending
import Parley.Proofs.Session.HalfTag
import Parley.Proofs.Session.Allowance
import Parley.Proofs.Timetable.Keeping
import Parley.Proofs.Session.Effective
import Parley.Proofs.Session.Drift
import Parley.Proofs.Session.Adopting
import Parley.Proofs.Console.ExitCode
import Parley.Proofs.Color
import Parley.Proofs.Number.Order
import Parley.Proofs.Condition
import Parley.Proofs.Graph.Authoring
