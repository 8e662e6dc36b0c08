import AmuxApi.Payment.Epay
import AmuxApi.Payment.Status
import AmuxApi.Payment.Tokens
import AmuxApi.Subscription.Idempotent
import AmuxApi.Subscription.Period
import AmuxApi.Purchase.Groups
import AmuxApi.AsyncTask.Channels
import AmuxApi.AsyncTask.Charge
import AmuxApi.Realtime.Settlement
import AmuxApi.MjProxy.Polling
import AmuxApi.ApiToken.Quota
import AmuxApi.ApiToken.Groups
import AmuxApi.ChannelChain.Retries
import AmuxApi.Billing.Parallel
import AmuxApi.RedeemCode.Redeem
import AmuxApi.Limiter.Redis
import AmuxApi.Batch.Flush
import AmuxApi.Revocation.Rejected
import AmuxApi.Override.Sync
import AmuxApi.BlindBox.Periods
import AmuxApi.Identity.StepUp
import AmuxApi.Identity.Rotation
import AmuxApi.TwoFA.Lockout
import AmuxApi.TwoFA.BackupCodes
import AmuxApi.DeviceAuth.Delivery
import AmuxApi.DeviceAuth.Leftover
import AmuxApi.EmailCode.OneUse
import AmuxApi.QuotaCache.Agreement
import AmuxApi.ClaudeStream.Grammar
import AmuxApi.Tiered.Smoke
import AmuxApi.Tiered.Text
import AmuxApi.RateLimit.Memory
import AmuxApi.Payment.Upgrade
import AmuxApi.Purchase.Plans
import AmuxApi.ChannelChain.Weights
import AmuxApi.ChannelChain.KeyStatus
import AmuxApi.AsyncTask.Suno
import AmuxApi.AsyncTask.Ratios
