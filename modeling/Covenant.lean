import Covenant.Ledger.Interval
import Covenant.Proofs.Source.Bookkeeping
import Covenant.Proofs.Source.CutOff
import Covenant.Proofs.Source.Delivery
import Covenant.Proofs.Wire.KeyOrder
import Covenant.Proofs.Wire.Normalization
import Covenant.Proofs.Wire.Compositionality
import Covenant.Proofs.Wire.SelfTyped
import Covenant.Proofs.Wire.Snapshots
import Covenant.Source.Reader.Text
import Covenant.Source.Record
import Covenant.Source.TokenStream
import Covenant.Wire.Canonical
import Covenant.Proofs.Source.Positions
import Covenant.Proofs.Source.Grammar
import Covenant.Proofs.Json.PlainReading
import Covenant.Proofs.Wire.PlainText
import Covenant.Proofs.Source.LineBreaks
import Covenant.Proofs.Wire.Loading
import Covenant.Proofs.Wire.Descents
import Covenant.Proofs.Source.Adjacency
import Covenant.Proofs.Source.Endings
import Covenant.Proofs.Source.Flaws
import Covenant.Proofs.Wire.Numerals
import Covenant.Proofs.Source.LongestText
import Covenant.Proofs.Wire.Repeats
import Covenant.Proofs.Text.Numerals
import Covenant.Proofs.Wire.Integers
