import ChipEight.Main
import ChipEight.Session.Progress
import ChipEight.Session.Recorder
import ChipEight.Proofs.Drawing
import ChipEight.Proofs.OpcodeTable
import ChipEight.Proofs.Handlers
import ChipEight.Proofs.Blocks
import ChipEight.Proofs.Cycles
import ChipEight.Proofs.Runs
import ChipEight.Proofs.Guards
import ChipEight.Proofs.Faults
import ChipEight.Proofs.Effects
import ChipEight.Proofs.Agreement
import ChipEight.Proofs.Noninterference
import ChipEight.Proofs.Subroutines
import ChipEight.Proofs.Loading
import ChipEight.Proofs.Histories
import ChipEight.Proofs.Keypads
import ChipEight.Proofs.KeyDelivery
import ChipEight.Proofs.Redraws
import ChipEight.Proofs.Timers
import ChipEight.Proofs.Keymaps
import ChipEight.Proofs.Polls
import ChipEight.Proofs.KeyHolds
import ChipEight.Proofs.KeyQueue
import ChipEight.Proofs.Shutdown
import ChipEight.Proofs.Turns
import ChipEight.Proofs.Recordings
import ChipEight.Proofs.Accounts
import ChipEight.Proofs.Pacing
import ChipEight.Proofs.Shown
import ChipEight.Proofs.Grants
import ChipEight.Proofs.Takeover
import ChipEight.Proofs.Release
import ChipEight.Proofs.Collisions
import ChipEight.Proofs.Transfers
import ChipEight.Proofs.Waiting
import ChipEight.Proofs.Listings
import ChipEight.Proofs.Tracing
import ChipEight.Proofs.KeymapTexts
import ChipEight.Proofs.StraightLines
import ChipEight.Proofs.UnknownWords
import ChipEight.Proofs.Listening
import ChipEight.Proofs.Colours
import ChipEight.Proofs.Dumps
import ChipEight.Proofs.PadPushes
import ChipEight.Proofs.PadPicture
import ChipEight.Proofs.FrameBuffer
import ChipEight.Proofs.Batches
import ChipEight.Proofs.BuzzerEdges
